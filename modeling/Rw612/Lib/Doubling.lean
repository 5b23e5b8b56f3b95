import Mathlib.Algebra.Order.Group.Unbundled.Abs
import Mathlib.Algebra.Order.Ring.Defs
import Mathlib.Order.Lattice

/-!
Normalisation by doubling. A value is doubled until it reaches a bound, and the
doublings are counted; the loop gets a budget, so that it need not come to an end.
The second part is a running maximum of magnitudes.
-/

namespace Rw612.Lib

section Doubling

theorem doubled_pow {α : Type*} [Semiring α] (temp : α) (k : Nat) :
    temp * 2 * 2 ^ k = temp * 2 ^ (k + 1) := by
  rw [pow_succ', mul_assoc]

variable {α : Type*} [Semiring α] [LinearOrder α]

/-- The value that has reached the bound, and `n` plus the number of doublings. -/
def doubleUntil (bound : α) : Nat → α → Nat → Option (α × Nat)
  | 0, _, _ => none
  | fuel + 1, temp, n =>
      if temp < bound then doubleUntil bound fuel (temp * 2) (n + 1) else some (temp, n)

/-- After `k` doublings, and not before, the value has reached the bound. -/
def ReachesAfter (bound temp : α) (k : Nat) : Prop :=
  bound ≤ temp * 2 ^ k ∧ ∀ j < k, temp * 2 ^ j < bound

variable {bound temp : α}

/-- A value that reaches the bound by `m` doublings is stopped by then. -/
theorem exists_reachesAfter {m : Nat} (h : bound ≤ temp * 2 ^ m) :
    ∃ k ≤ m, ReachesAfter bound temp k := by
  induction m generalizing temp with
  | zero => exact ⟨0, Nat.le_refl 0, h, fun j hj => absurd hj (Nat.not_lt_zero j)⟩
  | succ m ih =>
      by_cases hnow : temp < bound
      · rw [← doubled_pow] at h
        obtain ⟨k, hkm, hreach, hbefore⟩ := ih h
        rw [doubled_pow] at hreach
        refine ⟨k + 1, Nat.succ_le_succ hkm, hreach, ?_⟩
        intro j hj
        cases j with
        | zero =>
            rw [pow_zero, mul_one]
            exact hnow
        | succ j =>
            rw [← doubled_pow]
            exact hbefore j (Nat.lt_of_succ_lt_succ hj)
      · refine ⟨0, Nat.zero_le _, ?_, fun j hj => absurd hj (Nat.not_lt_zero j)⟩
        rw [pow_zero, mul_one]
        exact not_lt.mp hnow

theorem doubleUntil_of_reaches {k fuel : Nat} (h : ReachesAfter bound temp k) (hfuel : k < fuel)
    (n : Nat) : doubleUntil bound fuel temp n = some (temp * 2 ^ k, n + k) := by
  induction k generalizing temp fuel n with
  | zero =>
      obtain ⟨fuel, rfl⟩ := Nat.exists_eq_add_of_lt hfuel
      have hstop : ¬temp < bound := by
        have hreach := h.1
        rw [pow_zero, mul_one] at hreach
        exact not_lt.mpr hreach
      rw [doubleUntil, if_neg hstop, pow_zero, mul_one, Nat.add_zero]
  | succ k ih =>
      obtain ⟨fuel, rfl⟩ : ∃ f, fuel = f + 1 := ⟨fuel - 1, by omega⟩
      have hgo : temp < bound := by
        have hfirst := h.2 0 (Nat.succ_pos k)
        rwa [pow_zero, mul_one] at hfirst
      have hrest : ReachesAfter bound (temp * 2) k := by
        refine ⟨?_, ?_⟩
        · rw [doubled_pow]
          exact h.1
        · intro j hj
          rw [doubled_pow]
          exact h.2 (j + 1) (Nat.succ_lt_succ hj)
      rw [doubleUntil, if_pos hgo, ih hrest (Nat.lt_of_succ_lt_succ hfuel), doubled_pow,
        Nat.add_right_comm, Nat.add_assoc]

/-- A loop that has come to an end has reached the bound. -/
theorem doubleUntil_reached {fuel n : Nat} {r : α × Nat}
    (h : doubleUntil bound fuel temp n = some r) : ∃ k, bound ≤ temp * 2 ^ k := by
  induction fuel generalizing temp n with
  | zero => cases h
  | succ fuel ih =>
      rw [doubleUntil] at h
      split at h
      · obtain ⟨k, hk⟩ := ih h
        exact ⟨k + 1, by rwa [← doubled_pow]⟩
      case isFalse hstop =>
          refine ⟨0, ?_⟩
          rw [pow_zero, mul_one]
          exact not_lt.mp hstop

/-- Zero stays below a positive bound for ever. -/
theorem doubleUntil_zero (hbound : 0 < bound) (fuel n : Nat) :
    doubleUntil bound fuel (0 : α) n = none := by
  cases h : doubleUntil bound fuel (0 : α) n with
  | none => rfl
  | some r =>
      obtain ⟨k, hk⟩ := doubleUntil_reached h
      rw [zero_mul] at hk
      exact absurd hk (not_le.mpr hbound)

end Doubling

section Magnitude

variable {α : Type*} [AddGroup α] [LinearOrder α]

/-- The loop of a maximum: a larger magnitude replaces `temp`. -/
def maxMagnitude (temp : α) : List α → α
  | [] => temp
  | x :: xs => maxMagnitude (if |x| > temp then |x| else temp) xs

theorem maxMagnitude_eq (temp : α) (xs : List α) :
    maxMagnitude temp xs = temp ∨ ∃ x ∈ xs, maxMagnitude temp xs = |x| := by
  induction xs generalizing temp with
  | nil => exact Or.inl rfl
  | cons x xs ih =>
      rw [maxMagnitude]
      rcases ih (if |x| > temp then |x| else temp) with h | ⟨y, hy, h⟩
      · rw [h]
        split
        · exact Or.inr ⟨x, List.mem_cons_self, rfl⟩
        · exact Or.inl rfl
      · exact Or.inr ⟨y, List.mem_cons_of_mem x hy, h⟩

theorem le_maxMagnitude (temp : α) (xs : List α) :
    temp ≤ maxMagnitude temp xs ∧ ∀ x ∈ xs, |x| ≤ maxMagnitude temp xs := by
  induction xs generalizing temp with
  | nil => exact ⟨le_refl temp, fun x hx => absurd hx List.not_mem_nil⟩
  | cons x xs ih =>
      rw [maxMagnitude]
      obtain ⟨hstart, hrest⟩ := ih (if |x| > temp then |x| else temp)
      have hmax : temp ≤ (if |x| > temp then |x| else temp) ∧
          |x| ≤ (if |x| > temp then |x| else temp) := by
        split
        case isTrue h => exact ⟨le_of_lt h, le_refl _⟩
        case isFalse h => exact ⟨le_refl _, not_lt.mp h⟩
      refine ⟨hmax.1.trans hstart, ?_⟩
      intro y hy
      rcases List.mem_cons.mp hy with rfl | hy
      · exact hmax.2.trans hstart
      · exact hrest y hy

end Magnitude

end Rw612.Lib
