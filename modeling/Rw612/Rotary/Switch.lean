import Rw612.Ir.Aircon

/-!
The push switch of `rotary_enc.c` and the part of the main loop that turns its
count into air conditioner actions. The work item of the switch and the main
loop share one word, `s_sw_count`, which each of them touches in one atomic
operation, so a round of either is one step.
-/

namespace Rw612.Rotary

open Lib Ir

/-- The variables of the switch, `s_last_sw` of the main loop and the calls of
`ir_aircon_send` it has made. `presses` counts the presses seen so far. -/
structure Switch where
  swPrev : Bool
  swCount : BitVec 32
  lastSw : Int
  looping : Bool
  sent : List (Brand × AirconAction)
  presses : Nat
  deriving DecidableEq

def Switch.boot : Switch where
  swPrev := false
  swCount := 0
  lastSw := 0
  looping := true
  sent := []
  presses := 0

/-- The cast of the atomic word to `int32_t`. -/
def rotaryEncGetSwCount (s : Switch) : Int := s.swCount.toInt

/-- `rotary_sw_poll_fn`; `logical` is what `gpio_pin_get_dt` returns. -/
def rotarySwPollFn (logical : Int) (s : Switch) : Switch :=
  let pressed := logical == 1
  let s := if pressed != s.swPrev && pressed then
      { s with swCount := s.swCount + 1, presses := s.presses + 1 }
    else s
  { s with swPrev := pressed }

/-- The action for a count: `%` of C, so a negative count falls to the default. -/
def swAction (sw : Int) : AirconAction :=
  match sw.tmod 4 with
  | 1 => .powerOn
  | 2 => .tempUp
  | 3 => .tempDown
  | _ => .powerOff

/-- The switch in one round of `app_main_task`. -/
def pollSw (s : Switch) : Switch :=
  let sw := rotaryEncGetSwCount s
  if sw ≠ s.lastSw then
    { s with lastSw := sw, sent := s.sent ++ [(.samsung, swAction sw)] }
  else s

inductive Event where
  | swPoll (logical : Int)
  | mainRound (toggled : Int)
  deriving DecidableEq

/-- The main loop returns when the LED cannot be toggled. -/
def step (s : Switch) : Event → Option Switch
  | .swPoll logical => some (rotarySwPollFn logical s)
  | .mainRound toggled =>
      if s.looping then
        if toggled < 0 then some { s with looping := false } else some (pollSw s)
      else none

def switchSystem : System Switch Event := ⟨step⟩

/-- The sequence the comment of the source gives:
1 = ON, 2 = TEMP_UP, 3 = TEMP_DOWN, 4 = OFF, and again from the start. -/
def sequenceStep (i : Nat) : AirconAction :=
  match i % 4 with
  | 0 => .powerOn
  | 1 => .tempUp
  | 2 => .tempDown
  | _ => .powerOff

def firstSteps (k : Nat) : List (Brand × AirconAction) :=
  (List.range k).map fun i => (.samsung, sequenceStep i)

@[simp] theorem length_firstSteps (k : Nat) : (firstSteps k).length = k := by
  simp [firstSteps]

theorem firstSteps_succ (k : Nat) :
    firstSteps (k + 1) = firstSteps k ++ [(.samsung, sequenceStep k)] := by
  simp [firstSteps, List.range_succ]

/-- The count after a press names that press's own step. -/
theorem swAction_succ (k : Nat) : swAction (k + 1 : Nat) = sequenceStep k := by
  have htmod : ((k + 1 : Nat) : Int).tmod 4 = ((k + 1) % 4 : Nat) :=
    (Int.ofNat_tmod (k + 1) 4).symm
  have hk : k % 4 = 0 ∨ k % 4 = 1 ∨ k % 4 = 2 ∨ k % 4 = 3 := by omega
  rw [swAction, sequenceStep, htmod]
  rcases hk with hk | hk | hk | hk
  · rw [hk, show (k + 1) % 4 = 1 by omega]
    rfl
  · rw [hk, show (k + 1) % 4 = 2 by omega]
    rfl
  · rw [hk, show (k + 1) % 4 = 3 by omega]
    rfl
  · rw [hk, show (k + 1) % 4 = 0 by omega]
    rfl

/-- A round of the main loop that reads the count. -/
def Event.Polls : Event → Prop
  | .swPoll _ => False
  | .mainRound toggled => 0 ≤ toggled

/-- The poll leaves exactly the steps of the presses counted so far. -/
def RunsEveryPress (s : Switch) (e : Event) : Prop :=
  e.Polls → ∀ s', step s e = some s' → s'.sent = firstSteps s'.presses

/-- The poll finds at most one press that the poll before it did not. -/
def AtMostOneNew (s : Switch) (e : Event) : Prop :=
  e.Polls → rotaryEncGetSwCount s ≤ s.lastSw + 1

def Switch.Few (s : Switch) : Prop := s.presses < 2147483648

/-- The word counts the presses, and the actions sent are the steps of the
presses the last poll had found. -/
structure Switch.InStep (s : Switch) : Prop where
  few : s.Few
  count : s.swCount = BitVec.ofNat 32 s.presses
  last : ∃ seen ≤ s.presses, s.lastSw = seen ∧ s.sent = firstSteps seen

theorem Switch.InStep.get {s : Switch} (h : s.InStep) :
    rotaryEncGetSwCount s = s.presses := by
  have hfew : s.presses < 2147483648 := h.few
  have hnat : (BitVec.ofNat 32 s.presses).toNat = s.presses := by
    rw [BitVec.toNat_ofNat]
    omega
  rw [rotaryEncGetSwCount, h.count, BitVec.toInt_eq_toNat_of_lt, hnat]
  omega

theorem Switch.InStep.boot : Switch.boot.InStep where
  few := by simp [Switch.Few, Switch.boot]
  count := rfl
  last := ⟨0, Nat.le_refl 0, rfl, rfl⟩

theorem rotarySwPollFn_inStep {s : Switch} (logical : Int) (h : s.InStep)
    (hfew : (rotarySwPollFn logical s).Few) : (rotarySwPollFn logical s).InStep := by
  obtain ⟨seen, hle, hlast, hsent⟩ := h.last
  constructor
  · exact hfew
  · simp only [rotarySwPollFn]
    split
    · rw [h.count, BitVec.ofNat_add]
      rfl
    · exact h.count
  · simp only [rotarySwPollFn]
    split
    · exact ⟨seen, Nat.le_succ_of_le hle, hlast, hsent⟩
    · exact ⟨seen, hle, hlast, hsent⟩

/-- A poll sends what is missing if and only if at most one press is new. -/
theorem pollSw_iff {s : Switch} (h : s.InStep) :
    (pollSw s).sent = firstSteps (pollSw s).presses ↔
      rotaryEncGetSwCount s ≤ s.lastSw + 1 := by
  obtain ⟨seen, hle, hlast, hsent⟩ := h.last
  have hget := h.get
  by_cases hnew : rotaryEncGetSwCount s = s.lastSw
  · have hseen : seen = s.presses := by omega
    simp only [pollSw, hnew, ne_eq, not_true_eq_false, if_false, hsent, hseen]
    exact ⟨fun _ => by omega, fun _ => trivial⟩
  · simp only [pollSw, hnew, ne_eq, not_false_eq_true, if_true, hsent]
    constructor
    · intro heq
      have hlen := congrArg List.length heq
      simp only [List.length_append, length_firstSteps, List.length_singleton] at hlen
      omega
    · intro hone
      have hnext : s.presses = seen + 1 := by omega
      rw [hget, hnext, swAction_succ, firstSteps_succ]

theorem pollSw_inStep {s : Switch} (h : s.InStep)
    (hsent : (pollSw s).sent = firstSteps (pollSw s).presses) : (pollSw s).InStep := by
  have hget := h.get
  by_cases hnew : rotaryEncGetSwCount s = s.lastSw
  · simpa only [pollSw, hnew, ne_eq, not_true_eq_false, if_false] using h
  · simp only [pollSw, hnew, ne_eq, not_false_eq_true, if_true] at hsent ⊢
    exact ⟨h.few, h.count, s.presses, Nat.le_refl _, hget, hsent⟩

/-- The step lemma: in step with the presses, the two conditions on a step are
the same, and a step that meets them stays in step. -/
theorem step_inStep {s s' : Switch} {e : Event} (h : s.InStep)
    (hs' : step s e = some s') (hfew : s'.Few) :
    (RunsEveryPress s e ↔ AtMostOneNew s e) ∧ (RunsEveryPress s e → s'.InStep) := by
  cases e with
  | swPoll logical =>
      obtain rfl : rotarySwPollFn logical s = s' := Option.some.inj hs'
      constructor
      · simp [RunsEveryPress, AtMostOneNew, Event.Polls]
      · intro _
        exact rotarySwPollFn_inStep logical h hfew
  | mainRound toggled =>
      cases hloop : s.looping with
      | false => simp [step, hloop] at hs'
      | true =>
          by_cases htoggled : toggled < 0
          · obtain rfl : { s with looping := false } = s' := by
              simpa [step, hloop, htoggled] using hs'
            constructor
            · simp [RunsEveryPress, AtMostOneNew, Event.Polls, htoggled]
            · intro _
              exact ⟨h.few, h.count, h.last⟩
          · obtain rfl : pollSw s = s' := by
              simpa [step, hloop, htoggled] using hs'
            have hpolls : (Event.mainRound toggled).Polls := Int.not_lt.mp htoggled
            have hiff : RunsEveryPress s (.mainRound toggled) ↔
                (pollSw s).sent = firstSteps (pollSw s).presses := by
              simp [RunsEveryPress, hpolls, hs']
            constructor
            · rw [hiff, pollSw_iff h]
              simp [AtMostOneNew, hpolls]
            · intro hruns
              exact pollSw_inStep h (hiff.mp hruns)

/-- Over fewer than 2^31 presses, every poll of a run leaves exactly the steps
of the presses counted so far if and only if no poll finds two new presses. -/
theorem every_press_runs_iff (es : List Event)
    (hfew : switchSystem.Always Switch.Few Switch.boot es) :
    switchSystem.Meets RunsEveryPress Switch.boot es ↔
      switchSystem.Meets AtMostOneNew Switch.boot es := by
  have hnext : switchSystem.Meets
      (fun s e => ∀ s', step s e = some s' → s'.Few) Switch.boot es := by
    apply System.meets_of_always _ hfew
    intro s e s' _ hs'few hs' t ht
    obtain rfl : s' = t := Option.some.inj (hs'.symm.trans ht)
    exact hs'few
  constructor
  · intro hruns
    apply System.meets_of_meets _ Switch.InStep.boot (hruns.and hnext)
    intro s e s' h hC hs'
    obtain ⟨hiff, hkeep⟩ := step_inStep h hs' (hC.2 s' hs')
    exact ⟨hiff.mp hC.1, hkeep hC.1⟩
  · intro hone
    apply System.meets_of_meets _ Switch.InStep.boot (hone.and hnext)
    intro s e s' h hC hs'
    obtain ⟨hiff, hkeep⟩ := step_inStep h hs' (hC.2 s' hs')
    exact ⟨hiff.mpr hC.1, hkeep (hiff.mpr hC.1)⟩

/-- A press before each of two polls, and the first two steps. -/
theorem every_press_runs_iff_two :
    switchSystem.Meets RunsEveryPress Switch.boot
        [.swPoll 1, .mainRound 0, .swPoll 0, .swPoll 1, .mainRound 0] ↔
      switchSystem.Meets AtMostOneNew Switch.boot
        [.swPoll 1, .mainRound 0, .swPoll 0, .swPoll 1, .mainRound 0] := by
  apply every_press_runs_iff
  simp [System.Always, switchSystem, step, rotarySwPollFn, pollSw, Switch.boot,
    Switch.Few, rotaryEncGetSwCount]

/-- Two presses within one second: POWER_ON is never sent. -/
theorem second_press_replaces_first :
    switchSystem.Always Switch.Few Switch.boot
        [.swPoll 1, .swPoll 0, .swPoll 1, .mainRound 0] ∧
      ¬ switchSystem.Meets RunsEveryPress Switch.boot
        [.swPoll 1, .swPoll 0, .swPoll 1, .mainRound 0] := by
  constructor
  · simp [System.Always, switchSystem, step, rotarySwPollFn, pollSw, Switch.boot,
      Switch.Few, rotaryEncGetSwCount]
  · simp [System.Meets, switchSystem, step, rotarySwPollFn, pollSw, Switch.boot,
      RunsEveryPress, Event.Polls, rotaryEncGetSwCount, swAction, firstSteps,
      List.range_succ]

end Rw612.Rotary
