import Mathlib.Algebra.Group.Hom.Defs
import Mathlib.Data.List.Chain
import Mathlib.Tactic.Abel

/-!
Paths through a set of states, given by where they start and the states they
visit one after another. Each step has a weight in a commutative group; what a
path travels is the sum of the weights of its steps.
-/

namespace Rw612.Lib

variable {σ G H : Type*}

/-- The state in which the path ends. -/
def arrive (x : σ) : List σ → σ
  | [] => x
  | y :: ys => arrive y ys

@[simp] theorem arrive_nil (x : σ) : arrive x [] = x := rfl

@[simp] theorem arrive_cons (x y : σ) (ys : List σ) : arrive x (y :: ys) = arrive y ys := rfl

theorem arrive_append (x : σ) (ys zs : List σ) :
    arrive x (ys ++ zs) = arrive (arrive x ys) zs := by
  induction ys generalizing x with
  | nil => rfl
  | cons y ys ih => exact ih y

/-- A path ends where it starts or in one of the states it visits. -/
theorem arrive_mem (x : σ) (ys : List σ) : arrive x ys ∈ x :: ys := by
  induction ys generalizing x with
  | nil => simp
  | cons y ys ih => exact List.mem_cons_of_mem x (ih y)

/-- The states of a path in reverse order, without the one it ends in. -/
def wayBack (x : σ) (ys : List σ) : List σ := (x :: ys).dropLast.reverse

@[simp] theorem wayBack_nil (x : σ) : wayBack x [] = [] := rfl

@[simp] theorem wayBack_cons (x y : σ) (ys : List σ) :
    wayBack x (y :: ys) = wayBack y ys ++ [x] := by
  simp [wayBack]

theorem arrive_wayBack (x : σ) (ys : List σ) : arrive (arrive x ys) (wayBack x ys) = x := by
  cases ys with
  | nil => rfl
  | cons y ys => rw [wayBack_cons, arrive_append, arrive_cons, arrive_nil]

section

variable [AddCommGroup G] (δ : σ → σ → G)

def travel (x : σ) : List σ → G
  | [] => 0
  | y :: ys => δ x y + travel y ys

@[simp] theorem travel_nil (x : σ) : travel δ x [] = 0 := rfl

@[simp] theorem travel_cons (x y : σ) (ys : List σ) :
    travel δ x (y :: ys) = δ x y + travel δ y ys := rfl

theorem travel_map {τ : Type*} (f : τ → σ) (x : τ) (ys : List τ) :
    travel δ (f x) (ys.map f) = travel (fun y z => δ (f y) (f z)) x ys := by
  induction ys generalizing x with
  | nil => rfl
  | cons y ys ih => rw [List.map_cons, travel_cons, ih, travel_cons]

theorem travel_append (x : σ) (ys zs : List σ) :
    travel δ x (ys ++ zs) = travel δ x ys + travel δ (arrive x ys) zs := by
  induction ys generalizing x with
  | nil => simp
  | cons y ys ih => simp [ih, add_assoc]

variable {δ}

/-- The way back takes back all that was travelled. -/
theorem travel_wayBack (hanti : ∀ x y, δ y x = -δ x y) (x : σ) (ys : List σ) :
    travel δ (arrive x ys) (wayBack x ys) = -travel δ x ys := by
  induction ys generalizing x with
  | nil => simp
  | cons y ys ih =>
      have hlast : travel δ (arrive (arrive y ys) (wayBack y ys)) [x] = -δ x y := by
        rw [arrive_wayBack, travel_cons, travel_nil, add_zero, hanti]
      rw [wayBack_cons, arrive_cons, travel_append, ih, hlast, travel_cons]
      abel

/-- Going back and forth between two states, a path travels no more than the
step from its first to its last state. -/
theorem travel_pair (hanti : ∀ x y, δ y x = -δ x y) (hsame : ∀ x, δ x x = 0) {x y z : σ}
    {ys : List σ} (hz : z = x ∨ z = y) (hys : ∀ w ∈ ys, w = x ∨ w = y) :
    travel δ z ys = δ z (arrive z ys) := by
  induction ys generalizing z with
  | nil => simp [hsame]
  | cons w ys ih =>
      obtain ⟨hw, hrest⟩ := List.forall_mem_cons.mp hys
      have hend : arrive w ys = x ∨ arrive w ys = y := by
        rcases List.mem_cons.mp (arrive_mem w ys) with heq | hmem
        · rw [heq]
          exact hw
        · exact hrest _ hmem
      rw [travel_cons, ih hw hrest, arrive_cons]
      rcases hz with rfl | rfl
      · rcases hw with rfl | rfl
        · rw [hsame, zero_add]
        · rcases hend with hend | hend
          · rw [hend, hanti w z, hsame, neg_add_cancel]
          · rw [hend, hsame, add_zero]
      · rcases hw with rfl | rfl
        · rcases hend with hend | hend
          · rw [hend, hsame, add_zero]
          · rw [hend, hanti w z, hsame, neg_add_cancel]
        · rw [hsame, zero_add]

/-- Where each step changes a potential by the image of its weight, the image of
what a path travels depends on its two ends only. -/
theorem travel_potential [AddCommGroup H] (φ : G →+ H) (f : σ → H) {R : σ → σ → Prop}
    (hstep : ∀ x y, R x y → φ (δ x y) = f y - f x) {x : σ} {ys : List σ}
    (hpath : List.IsChain R (x :: ys)) : φ (travel δ x ys) = f (arrive x ys) - f x := by
  induction ys generalizing x with
  | nil => simp
  | cons y ys ih =>
      obtain ⟨hxy, hrest⟩ := List.isChain_cons_cons.mp hpath
      rw [travel_cons, map_add, hstep x y hxy, ih hrest, arrive_cons]
      abel

end

end Rw612.Lib
