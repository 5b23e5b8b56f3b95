import Rw612.Lib.Transition

/-!
The schedule that the loops of `lux_task.c`, `amg8833_task.c` and `mlx90640_task.c`
have in common: a time of 32 bits is advanced by one period, reset if it has fallen
behind, and given to `k_sleep` as an absolute time. The uptime of the kernel is the
number of milliseconds since boot, of which `k_uptime_get_32` is the low 32 bits.
-/

namespace Rw612.Sensors

open Lib

inductive SensorTask where
  | lux
  | amg
  | mlx
  deriving DecidableEq

/-- `LUX_TASK_MIN_PERIOD_MS`, `AMG_TASK_MIN_PERIOD_MS`, `MLX_TASK_MIN_PERIOD_MS` -/
def SensorTask.minPeriodMs : SensorTask → BitVec 32
  | .lux => 200
  | .amg => 100
  | .mlx => 250

/-- `s_period_ms` after a start with `periodMs`. -/
def SensorTask.clamp (task : SensorTask) (periodMs : BitVec 32) : BitVec 32 :=
  if periodMs < task.minPeriodMs then task.minPeriodMs else periodMs

/-- `next_time` and `s_period_ms`; `uptime` is when the iteration begins. -/
structure Schedule where
  nextTime : BitVec 32
  periodMs : BitVec 32
  uptime : Nat
  running : Bool
  deriving DecidableEq

def kUptimeGet32 (uptime : Nat) : BitVec 32 := BitVec.ofNat 32 uptime

/-- The end of an iteration, up to `k_sleep`. -/
def advance (nextTime periodMs now : BitVec 32) : BitVec 32 :=
  let nextTime := nextTime + periodMs
  if (nextTime - now).toInt < 1 then now + periodMs else nextTime

/-- The time an iteration takes before its `k_sleep`. -/
structure Busy where
  ms : Nat
  short : ms < 2147483648

inductive Round where
  | iteration (busy : Busy)
  | stop

/-- The uptime at which an iteration calls `k_sleep`. -/
def Schedule.now (s : Schedule) (busy : Busy) : Nat := s.uptime + busy.ms

/-- The absolute time that `k_sleep` is given. -/
def Schedule.deadline (s : Schedule) (busy : Busy) : Nat :=
  (advance s.nextTime s.periodMs (kUptimeGet32 (s.now busy))).toNat

/-- The loop; a deadline that has passed makes `k_sleep` return at once. -/
def loopStep (s : Schedule) : Round → Option Schedule
  | .iteration busy =>
      if s.running then
        some { s with
          nextTime := advance s.nextTime s.periodMs (kUptimeGet32 (s.now busy))
          uptime := max (s.now busy) (s.deadline busy) }
      else none
  | .stop => some { s with running := false }

def sensorLoop : System Schedule Round := ⟨loopStep⟩

/-- The schedule of a task that is started with `periodMs` and sets `next_time` at
`uptime`. -/
def SensorTask.start (task : SensorTask) (periodMs : BitVec 32) (uptime : Nat) : Schedule where
  nextTime := kUptimeGet32 uptime
  periodMs := task.clamp periodMs
  uptime := uptime
  running := true

/-! What an iteration is to do, and when it does. -/

/-- The task sleeps, for at most one period. -/
def Sleeps (s : Schedule) : Round → Prop
  | .iteration busy =>
      s.now busy < s.deadline busy ∧ s.deadline busy ≤ s.now busy + s.periodMs.toNat
  | .stop => True

/-- When the next iteration is due: a period after this one began, or, if that is past
or too far ahead for the signed difference, a period after now. -/
def Schedule.due (s : Schedule) (busy : Busy) : Nat :=
  if busy.ms < s.periodMs.toNat ∧ s.periodMs.toNat < busy.ms + 2147483648 then
    s.uptime + s.periodMs.toNat
  else s.now busy + s.periodMs.toNat

/-- The next iteration is due before the uptime exceeds 32 bits. -/
def DueBeforeWrap (s : Schedule) : Round → Prop
  | .iteration busy => s.due busy < 4294967296
  | .stop => True

/-- `next_time` is the time at which the iteration began. -/
structure Schedule.OnTime (s : Schedule) : Prop where
  next : s.nextTime = kUptimeGet32 s.uptime
  period : 0 < s.periodMs.toNat

/-- The deadline is the due time, cut to 32 bits. -/
theorem Schedule.OnTime.deadline_eq {s : Schedule} (h : s.OnTime) (busy : Busy) :
    s.deadline busy = s.due busy % 4294967296 := by
  have hbusy := busy.short
  have hperiod := s.periodMs.isLt
  have hdiff : (s.nextTime + s.periodMs - kUptimeGet32 (s.now busy)).toInt < 1 ↔
      ¬(busy.ms < s.periodMs.toNat ∧ s.periodMs.toNat < busy.ms + 2147483648) := by
    rw [BitVec.toInt_eq_toNat_cond, h.next]
    simp only [BitVec.toNat_sub, BitVec.toNat_add, kUptimeGet32, BitVec.toNat_ofNat, Schedule.now]
    split <;> omega
  unfold Schedule.deadline advance Schedule.due
  dsimp only
  by_cases hfar : busy.ms < s.periodMs.toNat ∧ s.periodMs.toNat < busy.ms + 2147483648
  · rw [if_pos hfar, if_neg (fun hlt => hdiff.mp hlt hfar), h.next]
    simp only [BitVec.toNat_add, kUptimeGet32, BitVec.toNat_ofNat]
    omega
  · rw [if_neg hfar, if_pos (hdiff.mpr hfar)]
    simp only [BitVec.toNat_add, kUptimeGet32, BitVec.toNat_ofNat]
    omega

theorem Schedule.OnTime.due_bounds {s : Schedule} (h : s.OnTime) (busy : Busy) :
    s.now busy < s.due busy ∧ s.due busy ≤ s.now busy + s.periodMs.toNat := by
  have hperiod := h.period
  unfold Schedule.due Schedule.now
  split
  · omega
  · omega

/-- One iteration that began on time. -/
theorem Schedule.OnTime.sleeps_iff {s : Schedule} (h : s.OnTime) (e : Round) :
    Sleeps s e ↔ DueBeforeWrap s e := by
  cases e with
  | iteration busy =>
      obtain ⟨hafter, hwithin⟩ := h.due_bounds busy
      simp only [Sleeps, DueBeforeWrap, h.deadline_eq busy]
      constructor
      · intro hsleeps
        omega
      · intro hdue
        rw [Nat.mod_eq_of_lt hdue]
        exact ⟨hafter, hwithin⟩
  | stop => exact Iff.rfl

/-- An iteration that has slept is followed by one that begins on time. -/
theorem Schedule.OnTime.step {s s' : Schedule} {e : Round} (h : s.OnTime) (hsleeps : Sleeps s e)
    (hs' : loopStep s e = some s') : s'.OnTime := by
  cases e with
  | iteration busy =>
      simp only [loopStep] at hs'
      split at hs'
      · obtain rfl := Option.some.inj hs'
        obtain ⟨hlater, -⟩ := hsleeps
        refine ⟨?_, h.period⟩
        apply BitVec.eq_of_toNat_eq
        simp only [kUptimeGet32, BitVec.toNat_ofNat, Nat.max_eq_right (Nat.le_of_lt hlater)]
        exact (Nat.mod_eq_of_lt (BitVec.isLt _)).symm
      · cases hs'
  | stop =>
      obtain rfl := Option.some.inj hs'
      exact ⟨h.next, h.period⟩

theorem SensorTask.start_onTime (task : SensorTask) (periodMs : BitVec 32) (uptime : Nat) :
    (task.start periodMs uptime).OnTime := by
  have hmin : 0 < task.minPeriodMs.toNat := by cases task <;> decide
  refine ⟨rfl, ?_⟩
  simp only [SensorTask.start, SensorTask.clamp]
  split
  · exact hmin
  case isFalse hlong =>
      rw [BitVec.not_lt, BitVec.le_def] at hlong
      omega

/-- Over a run of any of the three loops, every iteration sleeps for a time of at
most one period exactly if every next iteration is due before the wrap. -/
theorem sensorLoop_sleeps_iff (task : SensorTask) (periodMs : BitVec 32) (uptime : Nat)
    (es : List Round) :
    sensorLoop.Meets Sleeps (task.start periodMs uptime) es ↔
      sensorLoop.Meets DueBeforeWrap (task.start periodMs uptime) es := by
  have hstart := task.start_onTime periodMs uptime
  constructor
  · intro hsleeps
    apply System.meets_of_meets _ hstart hsleeps
    intro s e s' h hC hs'
    exact ⟨(h.sleeps_iff e).mp hC, h.step hC hs'⟩
  · intro hdue
    apply System.meets_of_meets _ hstart hdue
    intro s e s' h hC hs'
    have hsleeps := (h.sleeps_iff e).mpr hC
    exact ⟨hsleeps, h.step hsleeps hs'⟩

/-- The light sensors read once a second, shortly before the wrap: the deadline is
704 ms after boot. -/
theorem wrapped_deadline :
    ¬∀ (task : SensorTask) (periodMs : BitVec 32) (uptime : Nat) (es : List Round),
      sensorLoop.Meets Sleeps (task.start periodMs uptime) es := by
  intro hall
  have hsleeps := (hall .lux 1000 4294967000 [.iteration ⟨700, by decide⟩] _ rfl).1
  exact absurd hsleeps.1 (by decide)

/-- Past the wrap: the uptime has outgrown every deadline. -/
def Schedule.PastWrap (s : Schedule) : Prop := 4294967296 ≤ s.uptime

def NeverSleeps (s : Schedule) : Round → Prop
  | .iteration busy => s.deadline busy < s.now busy
  | .stop => True

theorem Schedule.PastWrap.step {s s' : Schedule} {e : Round} (h : s.PastWrap)
    (hs' : loopStep s e = some s') : NeverSleeps s e ∧ s'.PastWrap := by
  unfold Schedule.PastWrap at h ⊢
  cases e with
  | iteration busy =>
      have hword : s.deadline busy < 4294967296 := BitVec.isLt _
      have hnow : s.uptime ≤ s.now busy := Nat.le_add_right _ _
      simp only [loopStep] at hs'
      split at hs'
      · obtain rfl := Option.some.inj hs'
        constructor
        · exact Nat.lt_of_lt_of_le hword (Nat.le_trans h hnow)
        · exact Nat.le_trans h (Nat.le_trans hnow (Nat.le_max_left _ _))
      · cases hs'
  | stop =>
      obtain rfl := Option.some.inj hs'
      exact ⟨trivial, h⟩

/-- From the wrap on, a task never sleeps again. -/
theorem sensorLoop_past_wrap {s : Schedule} (hpast : s.PastWrap) (es : List Round) :
    sensorLoop.Meets NeverSleeps s es :=
  System.meets_of_inv (fun _ _ _ h hs' => h.step hs') hpast es

end Rw612.Sensors
