import Mathlib.Data.List.Basic
import Mathlib.Tactic.Ring

/-!
Address ranges of a flat memory `Nat → α`: what a range reads, and what a
write that may reach only some of its cells leaves behind.
-/

namespace Rw612.Lib

variable {α : Type*}

/-- The cells `[off, off + len)` in order. -/
def readRange (m : Nat → α) (off len : Nat) : List α :=
  (List.range' off len).map m

/-- `data` written at `off`, reaching only the cells selected by `hit`. -/
def patch (m : Nat → α) (hit : Nat → Bool) (off : Nat) (data : List α) :
    Nat → α := fun p =>
  if hit p = true ∧ off ≤ p then data[p - off]?.getD (m p) else m p

@[simp] theorem readRange_length (m : Nat → α) (off len : Nat) :
    (readRange m off len).length = len := by
  simp [readRange]

@[simp] theorem readRange_zero (m : Nat → α) (off : Nat) :
    readRange m off 0 = [] := rfl

theorem readRange_add (m : Nat → α) (off a b : Nat) :
    readRange m off (a + b) = readRange m off a ++ readRange m (off + a) b := by
  simp only [readRange, ← List.map_append, List.range'_append_1]

theorem readRange_congr {m m' : Nat → α} {off len : Nat}
    (h : ∀ p, off ≤ p → p < off + len → m p = m' p) :
    readRange m off len = readRange m' off len := by
  apply List.map_congr_left
  intro p hp
  obtain ⟨hlow, hhigh⟩ := List.mem_range'_1.mp hp
  exact h p hlow hhigh

theorem patch_below (m : Nat → α) (hit : Nat → Bool) {off p : Nat}
    (data : List α) (hp : p < off) : patch m hit off data p = m p := by
  have : ¬ off ≤ p := by omega
  simp [patch, this]

/-- A range below the written one reads the same. -/
theorem readRange_patch_below (m : Nat → α) (hit : Nat → Bool)
    {start len off : Nat} (data : List α) (h : start + len ≤ off) :
    readRange (patch m hit off data) start len = readRange m start len :=
  readRange_congr fun _ _ hp => patch_below m hit data (by omega)

/-- A write that reaches all of its cells reads back as the data. -/
theorem readRange_patch_self (m : Nat → α) {hit : Nat → Bool} {off : Nat}
    {data : List α} (hhit : ∀ p, hit p = true) :
    readRange (patch m hit off data) off data.length = data := by
  apply List.ext_getElem (by simp)
  intro i hi hi'
  simp [readRange, patch, hhit, hi']

/-- Appending to a range: the cells below stay and the data follows them. -/
theorem readRange_patch_append (m : Nat → α) {hit : Nat → Bool} {off : Nat}
    {data : List α} (hhit : ∀ p, hit p = true) :
    readRange (patch m hit off data) 0 (off + data.length) =
      readRange m 0 off ++ data := by
  rw [readRange_add, Nat.zero_add, readRange_patch_self m hhit,
    readRange_patch_below m hit data (by omega)]

end Rw612.Lib
