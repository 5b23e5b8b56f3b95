import Mathlib.Data.List.Count
import Mathlib.Logic.Function.Iterate

/-!
Tasks that share a resource. A program asks the resource one request after another
and goes on with each reply; a task runs a program from its state to its next state,
turn after turn. The scheduler may let another task ask between any two requests.

If the resource falls into parts and every task keeps to a part of its own, then no
schedule can be told from the one in which the task is alone.
-/

namespace Rw612.Lib

inductive Prog (q r α : Type*) where
  | done (x : α)
  | ask (request : q) (next : r → Prog q r α)

namespace Prog

universe u

variable {q r α β δ : Type*}

def bind : Prog q r α → (α → Prog q r β) → Prog q r β
  | done x, f => f x
  | ask request next, f => ask request fun reply => (next reply).bind f

instance : Monad (Prog q r) where
  pure := done
  bind := bind

/-- The program with the resource for itself. -/
def run (answer : δ → q → r × δ) : Prog q r α → δ → α × δ
  | done x, d => (x, d)
  | ask request next, d => (next (answer d request).1).run answer (answer d request).2

/-- Whatever the replies are, every request of the program is one of `P`, and what it
ends with is one of `Q`. -/
def Keeps (P : q → Prop) (Q : α → Prop) : Prog q r α → Prop
  | done x => Q x
  | ask request next => P request ∧ ∀ reply, (next reply).Keeps P Q

@[simp] theorem run_pure (answer : δ → q → r × δ) (x : α) (d : δ) :
    (pure x : Prog q r α).run answer d = (x, d) := rfl

@[simp] theorem run_ask (answer : δ → q → r × δ) (request : q) (next : r → Prog q r α) (d : δ) :
    (ask request next).run answer d =
      (next (answer d request).1).run answer (answer d request).2 := rfl

@[simp] theorem run_bind {α β : Type u} (answer : δ → q → r × δ) (p : Prog q r α)
    (f : α → Prog q r β) (d : δ) :
    (p >>= f).run answer d = (f (p.run answer d).1).run answer (p.run answer d).2 := by
  induction p generalizing d with
  | done x => rfl
  | ask request next ih => exact ih _ _

theorem Keeps.pure {P : q → Prop} {Q : α → Prop} {x : α} (h : Q x) :
    (pure x : Prog q r α).Keeps P Q := h

theorem Keeps.bind {α β : Type u} {P : q → Prop} {Q : α → Prop} {R : β → Prop} {p : Prog q r α}
    {f : α → Prog q r β} (hp : p.Keeps P Q) (hf : ∀ x, Q x → (f x).Keeps P R) :
    (p >>= f).Keeps P R := by
  induction p with
  | done x => exact hf x hp
  | ask request next ih => exact ⟨hp.1, fun reply => ih reply (hp.2 reply)⟩

theorem Keeps.mono {P P' : q → Prop} {Q Q' : α → Prop} (hP : ∀ request, P request → P' request)
    (hQ : ∀ x, Q x → Q' x) {p : Prog q r α} (hp : p.Keeps P Q) : p.Keeps P' Q' := by
  induction p with
  | done x => exact hQ x hp
  | ask request next ih => exact ⟨hP _ hp.1, fun reply => ih reply (hp.2 reply)⟩

theorem Keeps.result {P : q → Prop} {Q : α → Prop} {p : Prog q r α} (hp : p.Keeps P Q)
    (answer : δ → q → r × δ) (d : δ) : Q (p.run answer d).1 := by
  induction p generalizing d with
  | done x => exact hp
  | ask request next ih => exact ih _ (hp.2 _) _

end Prog

section Alone

variable {q r σ δ : Type*} (answer : δ → q → r × δ) (turn : σ → Prog q r σ)

/-- One step of a task: a request, or the beginning of the next turn. -/
def taskStep : Prog q r σ × δ → Prog q r σ × δ
  | (.done s, d) => (turn s, d)
  | (.ask request next, d) => (next (answer d request).1, (answer d request).2)

/-- A whole turn of a task that is alone. -/
def taskTurn (x : σ × δ) : σ × δ := (turn x.1).run answer x.2

/-- Wherever a task is, it is on its way to the end of a turn. -/
theorem taskStep_on_the_way (p : Prog q r σ) (d : δ) (n : Nat) :
    ∃ k, ((taskStep answer turn)^[n] (p, d)).1.run answer
        ((taskStep answer turn)^[n] (p, d)).2 =
      (taskTurn answer turn)^[k] (p.run answer d) := by
  induction n with
  | zero => exact ⟨0, rfl⟩
  | succ n ih =>
      obtain ⟨k, hk⟩ := ih
      rw [Function.iterate_succ_apply']
      generalize (taskStep answer turn)^[n] (p, d) = x at hk
      obtain ⟨p', d'⟩ := x
      cases p' with
      | done s' =>
          refine ⟨k + 1, ?_⟩
          rw [Function.iterate_succ_apply', ← hk]
          rfl
      | ask request next => exact ⟨k, hk⟩

/-- A task that is between two turns has taken whole turns. -/
theorem taskStep_between {p : Prog q r σ} {s : σ} {d d' : δ} {n : Nat}
    (h : (taskStep answer turn)^[n] (p, d) = (.done s, d')) :
    ∃ k, (taskTurn answer turn)^[k] (p.run answer d) = (s, d') := by
  obtain ⟨k, hk⟩ := taskStep_on_the_way answer turn p d n
  rw [h] at hk
  exact ⟨k, hk.symm⟩

end Alone

section Shared

variable {ι q r δ : Type*} {σ ρ : ι → Type*} [DecidableEq ι]

/-- The parts of a resource: task `i` sees the part `view i`, which answers its
requests and which the requests of the others leave as it is. -/
structure Parted (answer : δ → q → r × δ) (mine : ι → q → Prop) (view : ∀ i, δ → ρ i)
    (part : ∀ i, ρ i → q → r × ρ i) : Prop where
  reply : ∀ i d request, mine i request →
    (answer d request).1 = (part i (view i d) request).1
  own : ∀ i d request, mine i request →
    view i (answer d request).2 = (part i (view i d) request).2
  other : ∀ i j d request, i ≠ j → mine j request →
    view i (answer d request).2 = view i d

variable (answer : δ → q → r × δ) (turn : ∀ i, σ i → Prog q r (σ i))

/-- The tasks, each at its place in its program, and the resource. -/
structure Tasks (q r δ : Type*) (σ : ι → Type*) where
  places : ∀ i, Prog q r (σ i)
  resource : δ

/-- Task `i` is scheduled. -/
def Tasks.step (s : Tasks q r δ σ) (i : ι) : Tasks q r δ σ :=
  let next := taskStep answer (turn i) (s.places i, s.resource)
  ⟨Function.update s.places i next.1, next.2⟩

variable {answer turn} {mine : ι → q → Prop} {view : ∀ i, δ → ρ i}
  {part : ∀ i, ρ i → q → r × ρ i} {Inv : ∀ i, σ i → Prop}

/-- What one step is for each of the tasks. -/
theorem Parted.step (h : Parted answer mine view part)
    (hturn : ∀ i s, Inv i s → (turn i s).Keeps (mine i) (Inv i)) {s : Tasks q r δ σ}
    (hs : ∀ i, (s.places i).Keeps (mine i) (Inv i)) (j : ι) :
    (∀ i, ((s.step answer turn j).places i).Keeps (mine i) (Inv i)) ∧
      ∀ i, ((s.step answer turn j).places i, view i (s.step answer turn j).resource) =
        if i = j then taskStep (part i) (turn i) (s.places i, view i s.resource)
        else (s.places i, view i s.resource) := by
  have hj := hs j
  unfold Tasks.step
  cases hp : s.places j with
  | done x =>
      rw [hp] at hj
      constructor
      · intro i
        by_cases hi : i = j
        · subst hi
          simpa [taskStep] using hturn i x hj
        · simpa [taskStep, hi] using hs i
      · intro i
        by_cases hi : i = j
        · subst hi
          simp [taskStep, hp]
        · simp [taskStep, hi]
  | ask request next =>
      rw [hp] at hj
      constructor
      · intro i
        by_cases hi : i = j
        · subst hi
          simpa [taskStep] using hj.2 _
        · simpa [taskStep, hi] using hs i
      · intro i
        by_cases hi : i = j
        · subst hi
          simp [taskStep, hp, h.reply i _ _ hj.1, h.own i _ _ hj.1]
        · simp [taskStep, hi, h.other i j _ _ hi hj.1]

/-- Whatever the schedule, every task is where it would be alone after its own steps. -/
theorem Parted.alone (h : Parted answer mine view part)
    (hturn : ∀ i s, Inv i s → (turn i s).Keeps (mine i) (Inv i)) (schedule : List ι)
    {s : Tasks q r δ σ} (hs : ∀ i, (s.places i).Keeps (mine i) (Inv i)) :
    (∀ i, ((schedule.foldl (Tasks.step answer turn) s).places i).Keeps (mine i) (Inv i)) ∧
      ∀ i, ((schedule.foldl (Tasks.step answer turn) s).places i,
          view i (schedule.foldl (Tasks.step answer turn) s).resource) =
        (taskStep (part i) (turn i))^[schedule.count i] (s.places i, view i s.resource) := by
  induction schedule generalizing s with
  | nil => exact ⟨hs, fun i => rfl⟩
  | cons j schedule ih =>
      obtain ⟨hkeeps, hstep⟩ := h.step hturn hs j
      obtain ⟨hkeeps', halone⟩ := ih hkeeps
      refine ⟨hkeeps', fun i => ?_⟩
      rw [List.foldl_cons, halone i, hstep i]
      by_cases hi : i = j
      · subst hi
        rw [if_pos rfl, List.count_cons_self, Function.iterate_succ_apply]
      · rw [if_neg hi, List.count_cons_of_ne (Ne.symm hi)]

/-- A task that is between two turns is where whole turns of its own have brought it. -/
theorem Parted.between (h : Parted answer mine view part)
    (hturn : ∀ i s, Inv i s → (turn i s).Keeps (mine i) (Inv i)) (schedule : List ι)
    {s : Tasks q r δ σ} (hs : ∀ i, (s.places i).Keeps (mine i) (Inv i)) (i : ι) {x : σ i}
    (hx : (schedule.foldl (Tasks.step answer turn) s).places i = .done x) :
    Inv i x ∧ ∃ k, (taskTurn (part i) (turn i))^[k]
        ((s.places i).run (part i) (view i s.resource)) =
      (x, view i (schedule.foldl (Tasks.step answer turn) s).resource) := by
  obtain ⟨hkeeps, halone⟩ := h.alone hturn schedule hs
  have hi := hkeeps i
  have hat := halone i
  rw [hx] at hi hat
  exact ⟨hi, taskStep_between (part i) (turn i) hat.symm⟩

end Shared

end Rw612.Lib
