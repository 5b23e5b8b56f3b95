import Mathlib.Data.List.Nodup

/-!
A FIFO queue of work items in which an item is queued at most once. Submitting
an item that is already queued keeps its place; an item that has been taken out
may be queued again while it runs.
-/

namespace Rw612.Lib

structure WorkQueue (ι : Type*) where
  pending : List ι
  nodup : pending.Nodup

namespace WorkQueue

variable {ι : Type*}

def empty : WorkQueue ι := ⟨[], List.nodup_nil⟩

/-- The oldest item and the rest of the queue. -/
def next (q : WorkQueue ι) : Option (ι × WorkQueue ι) :=
  match q with
  | ⟨[], _⟩ => none
  | ⟨i :: rest, h⟩ => some (i, ⟨rest, h.of_cons⟩)

variable [DecidableEq ι]

def submit (q : WorkQueue ι) (i : ι) : WorkQueue ι :=
  if h : i ∈ q.pending then q
  else
    ⟨q.pending ++ [i], List.nodup_append.mpr
      ⟨q.nodup, List.nodup_singleton i, fun _ ha _ hb heq =>
        h (List.mem_singleton.mp hb ▸ heq ▸ ha)⟩⟩

def cancel (q : WorkQueue ι) (i : ι) : WorkQueue ι :=
  ⟨q.pending.erase i, q.nodup.erase i⟩

omit [DecidableEq ι] in
theorem next_eq_some {q q' : WorkQueue ι} {i : ι} :
    q.next = some (i, q') ↔ q.pending = i :: q'.pending := by
  obtain ⟨pending, h⟩ := q
  obtain ⟨pending', h'⟩ := q'
  cases pending with
  | nil => simp [next]
  | cons j rest => simp [next]

theorem submit_pending_of_mem {q : WorkQueue ι} {i : ι} (h : i ∈ q.pending) :
    (q.submit i).pending = q.pending := by
  simp [submit, h]

theorem submit_pending_of_notMem {q : WorkQueue ι} {i : ι} (h : i ∉ q.pending) :
    (q.submit i).pending = q.pending ++ [i] := by
  simp [submit, h]

/-- An item that is submitted is the last one, unless it was queued with others
behind it. -/
theorem submit_getLast {q : WorkQueue ι} {i : ι}
    (h : i ∈ q.pending → q.pending.getLast? = some i) :
    (q.submit i).pending.getLast? = some i := by
  by_cases hi : i ∈ q.pending
  · rw [submit_pending_of_mem hi]
    exact h hi
  · rw [submit_pending_of_notMem hi]
    exact List.getLast?_concat

@[simp] theorem mem_submit {q : WorkQueue ι} {i j : ι} :
    j ∈ (q.submit i).pending ↔ j = i ∨ j ∈ q.pending := by
  by_cases hi : i ∈ q.pending
  · rw [submit_pending_of_mem hi]
    exact ⟨Or.inr, fun h => h.elim (fun heq => heq ▸ hi) id⟩
  · rw [submit_pending_of_notMem hi]
    simp [or_comm]

@[simp] theorem mem_cancel {q : WorkQueue ι} {i j : ι} :
    j ∈ (q.cancel i).pending ↔ j ≠ i ∧ j ∈ q.pending :=
  q.nodup.mem_erase_iff

end WorkQueue

end Rw612.Lib
