import Rw612.Lib.Range
import Mathlib.Data.List.Basic

/-!
Reception into buffers that are lent to a driver. The driver stores into its
current buffer, reports what it has stored, and goes on in the next buffer as soon
as the current one is full; its events wait in a queue, so a report may be read
long after the driver has moved on. Nothing is lost or overwritten as long as a
buffer is lent only while the driver does not hold it and no report of it waits.
-/

namespace Rw612.Lib

inductive RxEvent (ι : Type*) where
  | ready (buf : ι) (offset len : Nat)
  | request
  | released (buf : ι)
  | disabled
  deriving DecidableEq, Repr

/-- `received` has everything that was ever stored. -/
structure Reception (ι α : Type*) where
  mem : ι → Nat → α
  current : Option ι
  fill : Nat
  reported : Nat
  next : Option ι
  queue : List (RxEvent ι)
  received : List α

namespace Reception

variable {ι α : Type*} (r : Reception ι α)

/-- One element arrives. -/
def store [DecidableEq ι] (i : ι) (x : α) : Reception ι α :=
  {r with
    mem := Function.update r.mem i (Function.update (r.mem i) r.fill x)
    fill := r.fill + 1
    received := r.received ++ [x]}

def post (e : RxEvent ι) : Reception ι α := {r with queue := r.queue ++ [e]}

/-- What has been stored in the current buffer since the last report. -/
def report (i : ι) : Reception ι α :=
  if r.reported < r.fill then
    {r.post (.ready i r.reported (r.fill - r.reported)) with reported := r.fill}
  else r

/-- Into a buffer that has been lent, which leaves the driver without a next one. -/
def enter (i : ι) : Reception ι α :=
  ({r with current := some i, fill := 0, reported := 0, next := none}).post .request

def leave : Reception ι α :=
  ({r with current := none, next := none}).post .disabled

/-- The current buffer is full. -/
def advance (i : ι) : Reception ι α :=
  let r := (r.report i).post (.released i)
  match r.next with
  | some j => r.enter j
  | none => r.leave

/-- The reception ends; both buffers are given back. -/
def halt (i : ι) : Reception ι α :=
  let r := (r.report i).post (.released i)
  match r.next with
  | some j => (r.post (.released j)).leave
  | none => r.leave

/-- What a report stands for. -/
def chunk (mem : ι → Nat → α) : RxEvent ι → List α
  | .ready buf offset len => readRange (mem buf) offset len
  | _ => []

/-- What has been stored and not been handed on: the reports that wait, and the rest
of the current buffer. -/
def owed : List α :=
  r.queue.flatMap (chunk r.mem) ++
    r.current.elim [] (fun i => readRange (r.mem i) r.reported (r.fill - r.reported))

/-- The order in which the driver queues its events: while a request waits there is
no other one and only the current buffer is reported, and the end comes last. -/
def Follows (current : Option ι) : RxEvent ι → RxEvent ι → Prop
  | .disabled, _ => False
  | .request, .request => False
  | .request, .ready buf _ _ => current = none ∨ current = some buf
  | _, _ => True

/-- The driver's side of the protocol, and that nothing of what it has stored is
missing from `given` and what is owed. -/
structure Sound (given : List α) : Prop where
  bytes : given ++ r.owed = r.received
  filled : r.reported ≤ r.fill
  past : ∀ buf offset len, .ready buf offset len ∈ r.queue → r.current = some buf →
    offset + len ≤ r.reported
  spare : ∀ j, r.next = some j → r.current ≠ some j ∧ r.current ≠ none ∧
    ∀ offset len, .ready j offset len ∉ r.queue
  order : r.queue.Pairwise (Follows r.current)
  asked : .request ∈ r.queue → r.next = none
  ended : .disabled ∈ r.queue → r.current = none

theorem mem_post {e e' : RxEvent ι} (he : e ∈ (r.post e').queue) : e ∈ r.queue ∨ e = e' :=
  (List.mem_append.mp he).imp_right List.mem_singleton.mp

theorem order_post {current : Option ι} {e' : RxEvent ι}
    (horder : r.queue.Pairwise (Follows current))
    (hlast : ∀ e ∈ r.queue, Follows current e e') :
    (r.post e').queue.Pairwise (Follows current) := by
  refine List.pairwise_append.mpr ⟨horder, List.pairwise_singleton .., fun e he e'' he'' => ?_⟩
  obtain rfl := List.mem_singleton.mp he''
  exact hlast e he

@[simp] theorem report_current (i : ι) : (r.report i).current = r.current := by
  unfold report
  split <;> rfl

@[simp] theorem report_next (i : ι) : (r.report i).next = r.next := by
  unfold report
  split <;> rfl

@[simp] theorem report_fill (i : ι) : (r.report i).fill = r.fill := by
  unfold report
  split <;> rfl

theorem mem_report {i : ι} {e : RxEvent ι} (he : e ∈ (r.report i).queue) :
    e ∈ r.queue ∨ r.reported < r.fill ∧ e = .ready i r.reported (r.fill - r.reported) := by
  unfold report at he
  split at he
  · next hlt => exact (r.mem_post he).imp_right (fun he => ⟨hlt, he⟩)
  · exact Or.inl he

/-- A range that is reported lies in what had been stored. -/
def Within (size : Nat) : Prop :=
  r.fill ≤ size ∧ ∀ buf offset len, .ready buf offset len ∈ r.queue →
    0 < len ∧ offset + len ≤ size

namespace Within

variable {r} {size : Nat}

theorem report (h : r.Within size) (i : ι) : (r.report i).Within size := by
  refine ⟨Nat.le_trans (Nat.le_of_eq (r.report_fill i)) h.1, fun buf offset len he => ?_⟩
  rcases r.mem_report he with he | ⟨hlt, he⟩
  · exact h.2 buf offset len he
  · cases he
    have hfill := h.1
    omega

theorem post (h : r.Within size) {e : RxEvent ι}
    (he : ∀ buf offset len, e ≠ .ready buf offset len) : (r.post e).Within size := by
  refine ⟨h.1, fun buf offset len hmem => ?_⟩
  rcases r.mem_post hmem with hmem | heq
  · exact h.2 buf offset len hmem
  · exact absurd heq.symm (he buf offset len)

theorem enter (h : r.Within size) (i : ι) : (r.enter i).Within size := by
  refine post ?_ (by simp)
  exact ⟨Nat.zero_le _, h.2⟩

theorem leave (h : r.Within size) : r.leave.Within size := by
  refine post ?_ (by simp)
  exact ⟨h.1, h.2⟩

theorem advance (h : r.Within size) (i : ι) :
    (r.advance i).Within size := by
  have hdone := (h.report i).post (e := .released i) (by simp)
  unfold Reception.advance
  dsimp only
  split
  · exact hdone.enter _
  · exact hdone.leave

theorem halt (h : r.Within size) (i : ι) : (r.halt i).Within size := by
  have hdone := (h.report i).post (e := .released i) (by simp)
  unfold Reception.halt
  dsimp only
  split
  · exact (hdone.post (by simp)).leave
  · exact hdone.leave

end Within

theorem halt_off (i : ι) :
    (r.halt i).current = none ∧ (r.halt i).next = none ∧ .disabled ∈ (r.halt i).queue := by
  unfold halt
  dsimp only
  split <;> simp [leave, post]

/-- After its buffer the driver goes on in the next one, or is off. -/
theorem advance_next (i : ι) :
    (∀ j, r.next = some j → (r.advance i).current = some j ∧ (r.advance i).next = none) ∧
      (r.next = none → (r.advance i).current = none ∧ (r.advance i).next = none ∧
        .disabled ∈ (r.advance i).queue) := by
  have hnext : ((r.report i).post (.released i)).next = r.next := r.report_next i
  unfold advance
  dsimp only
  constructor
  · intro j hj
    rw [hnext.trans hj]
    exact ⟨rfl, rfl⟩
  · intro hnone
    rw [hnext.trans hnone]
    exact ⟨rfl, rfl, List.mem_append_right _ List.mem_cons_self⟩

/-- The driver owes nothing of the buffer that it is done with. -/
def Done : Prop := r.current = none ∨ r.reported = r.fill

namespace Sound

variable {r} {given : List α} {i j : ι}

theorem store [DecidableEq ι] (h : r.Sound given) (hi : r.current = some i) (x : α) :
    (r.store i x).Sound given := by
  have hkept : ∀ buf offset len, .ready buf offset len ∈ r.queue →
      readRange ((r.store i x).mem buf) offset len = readRange (r.mem buf) offset len := by
    intro buf offset len hmem
    refine readRange_congr (fun p _ hp => ?_)
    by_cases hbuf : buf = i
    · subst hbuf
      have hpast := h.past buf offset len hmem hi
      have hfill := h.filled
      have hne : p ≠ r.fill := by omega
      simp [Reception.store, Function.update_of_ne hne]
    · simp [Reception.store, Function.update_of_ne hbuf]
  have hqueue : r.queue.flatMap (chunk (r.store i x).mem) = r.queue.flatMap (chunk r.mem) := by
    refine List.flatMap_congr (fun e he => ?_)
    cases e with
    | ready buf offset len => exact hkept buf offset len he
    | request | released | disabled => rfl
  have hrest : readRange ((r.store i x).mem i) r.reported (r.fill + 1 - r.reported) =
      readRange (r.mem i) r.reported (r.fill - r.reported) ++ [x] := by
    have hfill := h.filled
    rw [show r.fill + 1 - r.reported = (r.fill - r.reported) + 1 by omega, readRange_add,
      show r.reported + (r.fill - r.reported) = r.fill by omega]
    congr 1
    · refine readRange_congr (fun p _ hp => ?_)
      have hne : p ≠ r.fill := by omega
      simp [Reception.store, Function.update_of_ne hne]
    · simp [Reception.store, readRange]
  have hbytes := h.bytes
  refine ⟨?_, Nat.le_succ_of_le h.filled, h.past, h.spare, h.order, h.asked, h.ended⟩
  have howed : (r.store i x).owed = r.owed ++ [x] := by
    unfold owed
    rw [show (r.store i x).queue = r.queue from rfl, hqueue,
      show (r.store i x).current = some i from hi, hi, Option.elim_some, Option.elim_some,
      List.append_assoc]
    exact congrArg _ hrest
  rw [howed, ← List.append_assoc, hbytes]
  rfl

theorem not_ended (h : r.Sound given) (hi : r.current = some i) : .disabled ∉ r.queue :=
  fun hmem => absurd ((h.ended hmem).symm.trans hi) (by simp)

theorem report (h : r.Sound given) (hi : r.current = some i) : (r.report i).Sound given := by
  unfold Reception.report
  split
  · next hlt =>
    refine ⟨?_, Nat.le_refl _, ?_, ?_, ?_, ?_, ?_⟩
    · have hbytes := h.bytes
      simp only [owed, hi, Option.elim_some] at hbytes
      simpa [owed, Reception.post, hi, chunk] using hbytes
    · intro buf offset len hmem hbuf
      rcases mem_post _ hmem with hmem | hmem
      · exact Nat.le_trans (h.past buf offset len hmem hbuf) (Nat.le_of_lt hlt)
      · cases hmem
        change r.reported + (r.fill - r.reported) ≤ r.fill
        omega
    · intro j hj
      obtain ⟨hne, hsome, hnone⟩ := h.spare j hj
      refine ⟨hne, hsome, fun offset len hmem => ?_⟩
      rcases mem_post _ hmem with hmem | hmem
      · exact hnone offset len hmem
      · cases hmem
        exact hne hi
    · refine order_post _ h.order (fun e he => ?_)
      cases e with
      | ready | released => trivial
      | request => exact Or.inr hi
      | disabled => exact absurd he (h.not_ended hi)
    · intro hmem
      rcases mem_post _ hmem with hmem | hmem
      · exact h.asked hmem
      · cases hmem
    · intro hmem
      rcases mem_post _ hmem with hmem | hmem
      · exact h.ended hmem
      · cases hmem
  · exact h

theorem reported_report (h : r.Sound given) (i : ι) :
    (r.report i).reported = (r.report i).fill := by
  unfold Reception.report
  split
  · rfl
  · next hle => exact Nat.le_antisymm h.filled (Nat.le_of_not_lt hle)

theorem released (h : r.Sound given) (hi : r.current = some i) (buf : ι) :
    (r.post (.released buf)).Sound given := by
  refine ⟨?_, h.filled, fun buf' offset len he => ?_, fun j hj => ?_, ?_, fun he => ?_,
    fun he => ?_⟩
  · have hbytes := h.bytes
    simpa [owed, Reception.post, chunk] using hbytes
  · rcases mem_post _ he with he | he
    · exact h.past buf' offset len he
    · cases he
  · obtain ⟨hne, hsome, hnone⟩ := h.spare j hj
    refine ⟨hne, hsome, fun offset len he => ?_⟩
    rcases mem_post _ he with he | he
    · exact hnone offset len he
    · cases he
  · refine order_post _ h.order (fun e he => ?_)
    cases e with
    | ready | released | request => trivial
    | disabled => exact absurd he (h.not_ended hi)
  · rcases mem_post _ he with he | he
    · exact h.asked he
    · cases he
  · rcases mem_post _ he with he | he
    · exact h.ended he
    · cases he

theorem owed_done (hdone : r.Done) : r.owed = r.queue.flatMap (chunk r.mem) := by
  unfold owed
  rcases hdone with hnone | hall
  · rw [hnone, Option.elim_none, List.append_nil]
  · rw [hall, Nat.sub_self]
    cases r.current with
    | none => exact List.append_nil _
    | some i => exact List.append_nil _

theorem enter (h : r.Sound given) (hdone : r.Done) (hrequest : .request ∉ r.queue)
    (hdisabled : .disabled ∉ r.queue) (hfree : ∀ offset len, .ready j offset len ∉ r.queue) :
    (r.enter j).Sound given := by
  refine ⟨?_, Nat.le_refl _, fun buf offset len he hbuf => ?_, (fun _ hj => by cases hj), ?_,
    fun _ => rfl, fun he => ?_⟩
  · have hbytes := h.bytes
    rw [owed_done hdone] at hbytes
    simpa [owed, Reception.enter, Reception.post, chunk] using hbytes
  · rcases mem_post _ he with he | he
    · obtain rfl := Option.some.inj hbuf
      exact absurd he (hfree offset len)
    · cases he
  · have hfollows : ∀ e ∈ r.queue, ∀ e', Follows (some j) e e' := by
      intro e he e'
      cases e with
      | ready | released => trivial
      | request => exact absurd he hrequest
      | disabled => exact absurd he hdisabled
    exact order_post _ (h.order.imp_of_mem (fun he _ _ => hfollows _ he _))
      (fun e he => hfollows e he .request)
  · rcases mem_post _ he with he | he
    · exact absurd he hdisabled
    · cases he

theorem leave (h : r.Sound given) (hdone : r.Done) (hdisabled : .disabled ∉ r.queue) :
    r.leave.Sound given := by
  refine ⟨?_, h.filled, (fun _ _ _ _ hbuf => by cases hbuf), (fun _ hj => by cases hj), ?_,
    fun _ => rfl, fun _ => rfl⟩
  · have hbytes := h.bytes
    rw [owed_done hdone] at hbytes
    simpa [owed, Reception.leave, Reception.post, chunk] using hbytes
  · refine order_post _ (h.order.imp_of_mem ?_) (fun e he => ?_)
    · intro e e' he _ hfollows
      cases e with
      | ready | released => trivial
      | disabled => exact absurd he hdisabled
      | request =>
          cases e' with
          | ready => exact Or.inl rfl
          | request => exact hfollows
          | released | disabled => trivial
    · cases e with
      | ready | released | request => trivial
      | disabled => exact absurd he hdisabled

/-- The state between the last report of a buffer and what comes after it. -/
theorem finished (h : r.Sound given) (hi : r.current = some i) :
    let r' := (r.report i).post (.released i)
    r'.Sound given ∧ r'.Done ∧ r'.current = some i ∧ r'.next = r.next := by
  have hi' := (r.report_current i).trans hi
  exact ⟨(h.report hi).released hi' i, Or.inr (h.reported_report i), hi', r.report_next i⟩

theorem advance (h : r.Sound given) (hi : r.current = some i) :
    (r.advance i).Sound given := by
  obtain ⟨hsound, hdone, hcurrent, -⟩ := h.finished hi
  have hdisabled := hsound.not_ended hcurrent
  unfold Reception.advance
  dsimp only
  split
  · next j hj =>
    refine hsound.enter hdone (fun hmem => ?_) hdisabled (hsound.spare j hj).2.2
    exact absurd ((hsound.asked hmem).symm.trans hj) (by simp)
  · exact hsound.leave hdone hdisabled

theorem halt (h : r.Sound given) (hi : r.current = some i) : (r.halt i).Sound given := by
  obtain ⟨hsound, hdone, hcurrent, -⟩ := h.finished hi
  unfold Reception.halt
  dsimp only
  split
  · next j hj =>
    have hboth := hsound.released hcurrent j
    exact hboth.leave hdone (hboth.not_ended hcurrent)
  · exact hsound.leave hdone (hsound.not_ended hcurrent)

/-- A free buffer is lent to a reception that is off. -/
theorem start (h : r.Sound given) (hcurrent : r.current = none) (hqueue : r.queue = [])
    (i : ι) : (r.enter i).Sound given := by
  refine h.enter (Or.inl hcurrent) ?_ ?_ (fun _ _ => ?_) <;> simp [hqueue]

/-- A free buffer is lent in answer to a request. -/
theorem respond (h : r.Sound given) (hi : r.current = some i) (hne : j ≠ i)
    (hrequest : .request ∉ r.queue) (hfree : ∀ offset len, .ready j offset len ∉ r.queue) :
    Sound {r with next := some j} given := by
  refine ⟨h.bytes, h.filled, h.past, fun j' hj' => ?_, h.order,
    fun hmem => absurd hmem hrequest, h.ended⟩
  obtain rfl := Option.some.inj hj'
  refine ⟨fun hj => ?_, by simp [hi], hfree⟩
  exact hne (Option.some.inj (hi.symm.trans hj)).symm

/-- The event at the head of the queue is handed on. -/
theorem pop (h : r.Sound given) {e : RxEvent ι} {rest : List (RxEvent ι)}
    (hqueue : r.queue = e :: rest) :
    Sound {r with queue := rest} (given ++ chunk r.mem e) := by
  have hmem : ∀ e' ∈ rest, e' ∈ r.queue := fun e' he' => by
    rw [hqueue]
    exact List.mem_cons_of_mem e he'
  refine ⟨?_, h.filled, fun buf offset len he => h.past buf offset len (hmem _ he),
    fun j hj => ?_, ?_, fun he => h.asked (hmem _ he), fun he => h.ended (hmem _ he)⟩
  · have hbytes := h.bytes
    simpa [owed, hqueue] using hbytes
  · obtain ⟨hne, hsome, hnone⟩ := h.spare j hj
    exact ⟨hne, hsome, fun offset len he => hnone offset len (hmem _ he)⟩
  · have horder := h.order
    rw [hqueue] at horder
    exact (List.pairwise_cons.mp horder).2

end Sound

end Reception

end Rw612.Lib
