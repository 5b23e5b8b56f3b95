import Mathlib.Data.List.Nodup
import Mathlib.Data.List.Perm.Basic
import Mathlib.Logic.Function.Basic

/-!
A table of descriptors that one program shares with others. A number that is
closed can be given to anybody, so each opening also gets an identity of its
own. `Table.Holds` says that a list of descriptors is what the program has open
at the moment, and that it has closed everything else it ever opened, once.
-/

namespace Rw612.Lib

/-- A descriptor number, and which opening of the program returned it. -/
structure Desc where
  fd : Nat
  id : Nat
  deriving DecidableEq, Repr

/-- Whom an open number belongs to. -/
inductive Holder where
  | own (id : Nat)
  | other
  deriving DecidableEq, Repr

/-- A call of the program that names a descriptor, with the holder the number
had at that moment. -/
inductive DescUse where
  | close (k : Desc) (hit : Option Holder)
  | use (k : Desc) (hit : Option Holder)
  deriving DecidableEq, Repr

def DescUse.desc : DescUse → Desc
  | .close k _ | .use k _ => k

def DescUse.hit : DescUse → Option Holder
  | .close _ hit | .use _ hit => hit

structure Table where
  slots : Nat → Option Holder
  nextId : Nat
  uses : List DescUse

namespace Table

def empty : Table where
  slots _ := none
  nextId := 0
  uses := []

/-- The program is given the number `fd`. -/
def obtain (t : Table) (fd : Nat) : Table :=
  {t with
    slots := Function.update t.slots fd (some (.own t.nextId))
    nextId := t.nextId + 1}

/-- The descriptor the next opening returns for `fd`. -/
def fresh (t : Table) (fd : Nat) : Desc := ⟨fd, t.nextId⟩

/-- The program closes a number, whoever has it. -/
def close (t : Table) (k : Desc) : Table :=
  {t with
    slots := Function.update t.slots k.fd none
    uses := t.uses ++ [.close k (t.slots k.fd)]}

/-- The program passes a number to some other call. -/
def use (t : Table) (k : Desc) : Table :=
  {t with uses := t.uses ++ [.use k (t.slots k.fd)]}

/-- Another program opens or closes a number. -/
def other (t : Table) (fd : Nat) (holder : Option Holder) : Table :=
  {t with slots := Function.update t.slots fd holder}

/-- How often the program closed what its opening `id` returned. -/
def closeCount (t : Table) (id : Nat) : Nat :=
  t.uses.countP fun
    | .close k _ => k.id == id
    | .use _ _ => false

/-- `held` is what the program has open; the rest was closed once, and no call
reached a number that was not the program's own. -/
structure Holds (t : Table) (held : List Desc) : Prop where
  live : ∀ k ∈ held, t.slots k.fd = some (.own k.id) ∧ k.id < t.nextId ∧
    t.closeCount k.id = 0
  distinct : (held.map Desc.id).Nodup
  own : ∀ u ∈ t.uses, u.hit = some (.own u.desc.id)
  unused : ∀ id, t.nextId ≤ id → t.closeCount id = 0
  closed : ∀ id < t.nextId, id ∉ held.map Desc.id → t.closeCount id = 1

variable {t : Table} {held held' : List Desc} {k : Desc} {fd : Nat}

theorem holds_empty : empty.Holds [] where
  live := by simp
  distinct := List.nodup_nil
  own := by simp [empty]
  unused := by simp [empty, closeCount]
  closed := by simp [empty]

theorem Holds.perm (h : t.Holds held) (hperm : held.Perm held') : t.Holds held' where
  live k hk := h.live k (hperm.mem_iff.mpr hk)
  distinct := (hperm.map Desc.id).nodup_iff.mp h.distinct
  own := h.own
  unused := h.unused
  closed id hid hno := h.closed id hid fun hmem =>
    hno ((hperm.map Desc.id).mem_iff.mp hmem)

theorem Holds.closeCount_le (h : t.Holds held) (id : Nat) : t.closeCount id ≤ 1 := by
  by_cases hid : id < t.nextId
  · by_cases hmem : id ∈ held.map Desc.id
    · obtain ⟨k, hk, rfl⟩ := List.mem_map.mp hmem
      rw [(h.live k hk).2.2]
      exact Nat.zero_le 1
    · exact Nat.le_of_eq (h.closed id hid hmem)
  · rw [h.unused id (Nat.le_of_not_lt hid)]
    exact Nat.zero_le 1

/-- An opening returns a number that is free. -/
theorem Holds.obtain (h : t.Holds held) (hfd : t.slots fd = none) :
    (t.obtain fd).Holds (t.fresh fd :: held) := by
  have hnew : ∀ k ∈ held, k.id ≠ t.nextId := fun k hk => Nat.ne_of_lt (h.live k hk).2.1
  constructor
  · intro k hk
    rcases List.mem_cons.mp hk with rfl | hk
    · exact ⟨Function.update_self .., Nat.lt_succ_self _, h.unused _ (Nat.le_refl _)⟩
    · obtain ⟨hslot, hid, hcount⟩ := h.live k hk
      have hne : k.fd ≠ fd := by
        rintro rfl
        cases hslot.symm.trans hfd
      exact ⟨(Function.update_of_ne hne _ _).trans hslot, Nat.lt_succ_of_lt hid, hcount⟩
  · rw [List.map_cons, List.nodup_cons]
    refine ⟨fun hmem => ?_, h.distinct⟩
    obtain ⟨k, hk, heq⟩ := List.mem_map.mp hmem
    exact hnew k hk heq
  · exact h.own
  · exact fun id hid => h.unused id (Nat.le_of_succ_le hid)
  · intro id hid hno
    rw [List.map_cons, List.mem_cons, not_or] at hno
    exact h.closed id (Nat.lt_of_le_of_ne (Nat.le_of_lt_succ hid) hno.1) hno.2

theorem closeCount_close (t : Table) (k : Desc) (id : Nat) :
    (t.close k).closeCount id = t.closeCount id + if k.id = id then 1 else 0 := by
  simp [closeCount, Table.close, List.countP_singleton]

/-- Closing a descriptor takes it out of what is held. -/
theorem Holds.close (h : t.Holds (k :: held)) : (t.close k).Holds held := by
  obtain ⟨hslot, hid, hcount⟩ := h.live k List.mem_cons_self
  obtain ⟨hno, hdistinct⟩ := List.nodup_cons.mp h.distinct
  have hne : ∀ j ∈ held, k.id ≠ j.id := fun j hj heq =>
    hno (heq ▸ List.mem_map.mpr ⟨j, hj, rfl⟩)
  constructor
  · intro j hj
    obtain ⟨hslot', hid', hcount'⟩ := h.live j (List.mem_cons_of_mem k hj)
    have hfd : j.fd ≠ k.fd := by
      intro heq
      rw [heq, hslot] at hslot'
      exact hne j hj (Holder.own.inj (Option.some.inj hslot'))
    refine ⟨(Function.update_of_ne hfd _ _).trans hslot', hid', ?_⟩
    rw [closeCount_close, hcount', if_neg (hne j hj)]
  · exact hdistinct
  · intro u hu
    rcases List.mem_append.mp hu with hu | hu
    · exact h.own u hu
    · rw [List.mem_singleton.mp hu]
      exact hslot
  · intro id hid'
    rw [closeCount_close, h.unused id hid', if_neg (Nat.ne_of_lt (Nat.lt_of_lt_of_le hid hid'))]
  · intro id hid' hmem
    rw [closeCount_close]
    by_cases heq : k.id = id
    · rw [if_pos heq, ← heq, hcount]
    · rw [if_neg heq]
      apply h.closed id hid'
      rw [List.map_cons, List.mem_cons, not_or]
      exact ⟨Ne.symm heq, hmem⟩

/-- Passing a held descriptor on. -/
theorem Holds.use (h : t.Holds held) (hk : k ∈ held) : (t.use k).Holds held := by
  have hcount : (t.use k).closeCount = t.closeCount := by
    funext id
    simp [closeCount, Table.use]
  constructor
  · rw [hcount]
    exact h.live
  · exact h.distinct
  · intro u hu
    rcases List.mem_append.mp hu with hu | hu
    · exact h.own u hu
    · rw [List.mem_singleton.mp hu]
      exact (h.live k hk).1
  · rw [hcount]
    exact h.unused
  · rw [hcount]
    exact h.closed

/-- Other programs touch only numbers that are free or theirs. -/
theorem Holds.other (h : t.Holds held) (hfd : ∀ id, t.slots fd ≠ some (.own id))
    (holder : Option Holder) : (t.other fd holder).Holds held where
  live k hk := by
    obtain ⟨hslot, hrest⟩ := h.live k hk
    have hne : k.fd ≠ fd := by
      rintro rfl
      exact hfd k.id hslot
    exact ⟨(Function.update_of_ne hne _ _).trans hslot, hrest⟩
  distinct := h.distinct
  own := h.own
  unused := h.unused
  closed := h.closed

/-! Programs of several tasks, each with at most one descriptor in its hands. -/

/-- What the first `n` tasks hold. -/
def gather (holds : Nat → Option Desc) (n : Nat) : List Desc := (List.range n).filterMap holds

variable {holds : Nat → Option Desc} {m n : Nat}

theorem mem_gather : k ∈ gather holds n ↔ ∃ m < n, holds m = some k := by
  simp [gather]

theorem gather_succ (hnone : holds n = none) : gather holds (n + 1) = gather holds n := by
  simp [gather, List.range_succ, hnone]

/-- One task apart from the others. -/
theorem gather_perm (holds : Nat → Option Desc) (hm : m < n) :
    (gather holds n).Perm
      ((holds m).toList ++ gather (Function.update holds m none) n) := by
  obtain ⟨before, after, hrange⟩ := List.append_of_mem (List.mem_range.mpr hm)
  have hnodup : (m :: (before ++ after)).Nodup :=
    List.nodup_middle.mp (hrange ▸ List.nodup_range)
  have hothers : ∀ l : List Nat, (∀ i ∈ l, i ∈ before ++ after) →
      l.filterMap (Function.update holds m none) = l.filterMap holds := by
    intro l hl
    apply List.filterMap_congr
    intro i hi
    apply Function.update_of_ne
    rintro rfl
    exact (List.nodup_cons.mp hnodup).1 (hl i hi)
  have hbefore := hothers before fun i hi => List.mem_append_left after hi
  have hafter := hothers after fun i hi => List.mem_append_right before hi
  rw [gather, gather, hrange, List.filterMap_append, List.filterMap_append, hbefore,
    List.filterMap_cons, List.filterMap_cons, Function.update_self, hafter]
  cases holds m with
  | none => exact .refl _
  | some k => exact List.perm_middle

/-- A task opens a descriptor. -/
theorem Holds.obtain_at (h : t.Holds (gather holds n)) (hm : m < n) (hnone : holds m = none)
    (hfd : t.slots fd = none) :
    (t.obtain fd).Holds (gather (Function.update holds m (some (t.fresh fd))) n) := by
  have hperm := gather_perm (Function.update holds m (some (t.fresh fd))) hm
  have hrest : Function.update holds m none = holds := Function.update_eq_self_iff.mpr hnone.symm
  rw [Function.update_self, Function.update_idem, hrest] at hperm
  exact (h.obtain hfd).perm hperm.symm

/-- A task closes its descriptor. -/
theorem Holds.close_at (h : t.Holds (gather holds n)) (hm : m < n) (hk : holds m = some k) :
    (t.close k).Holds (gather (Function.update holds m none) n) := by
  have hperm := gather_perm holds hm
  rw [hk] at hperm
  exact (h.perm hperm).close

end Table

end Rw612.Lib
