import Rw612.Led.Animation
import Rw612.Lib.Transition
import Rw612.Lib.Wire

/-!
The LED service of `svc_led.c` over the animation: commands, reads of the status
and the ticks of the timer, in any order. The Bluetooth thread and the work queue
do not interrupt one another inside a callback.
-/

namespace Rw612.Led.Zephyr

open Lib

def BT_ATT_ERR_INVALID_OFFSET : UInt8 := 0x07
def BT_ATT_ERR_INVALID_ATTRIBUTE_LEN : UInt8 := 0x0d
def BT_ATT_ERR_UNLIKELY : UInt8 := 0x0e

/-- `led_status_t`. -/
structure LedStatus where
  pattern : UInt8
  r : UInt8
  g : UInt8
  b : UInt8
  w : UInt8
  brightness : UInt8
  ledCount : UInt16
  deriving DecidableEq

/-- The packed bytes of the status. -/
def LedStatus.bytes (st : LedStatus) : List UInt8 :=
  [st.pattern, st.r, st.g, st.b, st.w, st.brightness] ++ le16 st.ledCount

def LedPattern.code : LedPattern → UInt8
  | .off => 0
  | .solid => 1
  | .breathing => 2
  | .rainbow => 3
  | .strobe => 4
  | .other code => code

def refreshCachedStatus (s : LedTask) : LedStatus where
  pattern := s.pattern.code
  r := s.color.r
  g := s.color.g
  b := s.color.b
  w := s.color.w
  brightness := s.strip.brightness
  ledCount := ledStripCount s.strip

/-- The LED task and `s_status`, with all that clients have been told of the
status, by notifications and by reads. -/
structure LedService where
  task : LedTask
  status : LedStatus
  told : List (List UInt8)
  deriving DecidableEq

/-- `app_led_svc_init`; it does not look at what `led_task_start` answers. -/
def LedService.init (type : StripType) (pinRc : Int) : LedService :=
  let task := ((LedTask.powerUp type).start pinRc).2
  ⟨task, refreshCachedStatus task, []⟩

/-- `app_led_svc_publish_status` -/
def LedService.publishStatus (s : LedService) : LedService :=
  let status := refreshCachedStatus s.task
  { s with status := status, told := s.told ++ [status.bytes] }

/-- `write_cmd`; an ATT error, or the number of bytes taken. -/
def LedService.writeCmd (s : LedService) (buf : List UInt8) (offset : UInt16) :
    LedService × Except UInt8 Nat :=
  if offset ≠ 0 then (s, .error BT_ATT_ERR_INVALID_OFFSET)
  else if buf.length < 1 then (s, .error BT_ATT_ERR_INVALID_ATTRIBUTE_LEN)
  else
    match dispatchCmd buf s.task with
    | (rc, task) =>
        if rc ≠ 0 then ({ s with task := task }, .error BT_ATT_ERR_UNLIKELY)
        else ({ s with task := task }.publishStatus, .ok buf.length)

/-- `bt_gatt_attr_read` -/
def btGattAttrRead (value : List UInt8) (len offset : UInt16) : Except UInt8 (List UInt8) :=
  if offset.toNat > value.length then .error BT_ATT_ERR_INVALID_OFFSET
  else .ok ((value.drop offset.toNat).take len.toNat)

/-- `read_status` -/
def LedService.readStatus (s : LedService) (len offset : UInt16) : LedService :=
  let status := refreshCachedStatus s.task
  match btGattAttrRead status.bytes len offset with
  | .error _ => { s with status := status }
  | .ok bytes => { s with status := status, told := s.told ++ [bytes] }

inductive ServiceEvent where
  | write (buf : List UInt8) (offset : UInt16)
  | read (len offset : UInt16)
  | tick
  deriving DecidableEq

/-- The timer runs once the task has been started. -/
def LedService.step (s : LedService) : ServiceEvent → Option LedService
  | .write buf offset => some (s.writeCmd buf offset).1
  | .read len offset => some (s.readStatus len offset)
  | .tick => if s.task.started then some { s with task := tickFn s.task } else none

def ledSystem : System LedService ServiceEvent := ⟨LedService.step⟩

/-- The last status that has been told whole. -/
def LedService.lastStatus (s : LedService) : Option (List UInt8) :=
  (s.told.filter fun bytes => bytes.length = 8).getLast?

/-! What a client makes of a status. -/

def LedStatus.ofBytes : List UInt8 → Option LedStatus
  | [pattern, r, g, b, w, brightness, lo, hi] =>
      some ⟨pattern, r, g, b, w, brightness, lo.toUInt16 ||| (hi.toUInt16 <<< 8)⟩
  | _ => none

/-- The lamp that a status describes. -/
def LedStatus.lamp (type : StripType) (tick : UInt32) (st : LedStatus) : LedTask where
  type := type
  started := true
  pattern := .ofCode st.pattern
  color := ⟨st.r, st.g, st.b, st.w⟩
  sleepPreset := 0
  sleepPct := 0
  tick := tick
  strip := ⟨st.ledCount.toNat, [], st.brightness, true, []⟩

def ServiceEvent.ticks : ServiceEvent → Nat
  | .tick => 1
  | .write _ _ | .read _ _ => 0

/-- The ticks among the events. -/
def ticksIn (es : List ServiceEvent) : Nat := (es.map ServiceEvent.ticks).sum

/-- No command is taken. -/
def Untouched (s : LedService) (e : ServiceEvent) : Prop :=
  ∀ buf offset, e = .write buf offset → ∃ err, (s.writeCmd buf offset).2 = .error err

theorem ofBytes_bytes (st : LedStatus) : LedStatus.ofBytes st.bytes = some st := by
  have hcount := word16_of_bytes st.ledCount
  obtain ⟨pattern, r, g, b, w, brightness, count⟩ := st
  simp only [LedStatus.bytes, le16, List.cons_append, List.nil_append, LedStatus.ofBytes, hcount]

theorem bytes_length (st : LedStatus) : st.bytes.length = 8 := rfl

/-! The commands. -/

/-- A pattern that stands for its own code. -/
def LedPattern.Coded (p : LedPattern) : Prop := .ofCode p.code = p

theorem ofCode_coded (code : UInt8) : (LedPattern.ofCode code).Coded := by
  rw [LedPattern.Coded]
  generalize hp : LedPattern.ofCode code = p
  cases p with
  | off | solid | breathing | rainbow | strobe => rfl
  | other code' =>
      have hcode : code' = code := by
        unfold LedPattern.ofCode at hp
        split at hp
        all_goals first | cases hp; rfl | cases hp
      rw [LedPattern.code, hcode, hp, hcode]

theorem not_other {p : LedPattern} (hcoded : p.Coded) (hknown : p.code.toNat ≤ 4)
    (code : UInt8) : p ≠ .other code := by
  rintro rfl
  have hcode : LedPattern.ofCode code = .other code := hcoded
  have hsmall : code.toNat ≤ 4 := hknown
  obtain h | h | h | h | h : code.toNat = 0 ∨ code.toNat = 1 ∨ code.toNat = 2 ∨
      code.toNat = 3 ∨ code.toNat = 4 := by omega
  all_goals
    rw [LedPattern.ofCode, h] at hcode
    cases hcode

/-- What every command leaves as it is. -/
structure LedTask.Keeps (s s' : LedTask) : Prop where
  type : s'.type = s.type
  started : s'.started = s.started
  inited : s'.strip.inited = s.strip.inited
  count : s'.strip.count = s.strip.count
  length : s'.strip.pixels.length = s.strip.pixels.length
  sent : s'.strip.sent = s.strip.sent
  coded : s.pattern.Coded → s'.pattern.Coded

theorem LedTask.Keeps.refl (s : LedTask) : s.Keeps s := ⟨rfl, rfl, rfl, rfl, rfl, rfl, id⟩

theorem ledTaskSetPattern_keeps (code : UInt8) (c : Sk6812Color) (s : LedTask) :
    s.Keeps (ledTaskSetPattern (.ofCode code) c s) :=
  ⟨rfl, rfl, rfl, rfl, rfl, rfl, fun _ => ofCode_coded code⟩

theorem ledTaskSetPixel_keeps (idx : UInt16) (c : Sk6812Color) (s : LedTask) :
    s.Keeps (ledTaskSetPixel idx c s).2 ∧
      ((ledTaskSetPixel idx c s).1 ≠ 0 → (ledTaskSetPixel idx c s).2 = s) := by
  simp only [ledTaskSetPixel, ledStripSetPixel]
  by_cases hout : (!s.strip.inited || decide (idx.toNat ≥ s.strip.count)) = true
  · rw [if_pos hout]
    exact ⟨.refl s, fun _ => rfl⟩
  · rw [if_neg hout]
    exact ⟨⟨rfl, rfl, rfl, rfl, List.length_set, rfl, id⟩, fun h => absurd rfl h⟩

/-- A command keeps the task together, and one that is not taken changes nothing. -/
theorem dispatchCmd_keeps (buf : List UInt8) (s : LedTask) :
    s.Keeps (dispatchCmd buf s).2 ∧
      ((dispatchCmd buf s).1 ≠ 0 → (dispatchCmd buf s).2 = s) := by
  unfold dispatchCmd
  split
  · exact ⟨.refl s, fun _ => rfl⟩
  · split
    · exact ⟨ledTaskSetPattern_keeps _ _ s, fun h => absurd rfl h⟩
    · exact ⟨⟨rfl, rfl, rfl, rfl, rfl, rfl, id⟩, fun h => absurd rfl h⟩
    · exact ⟨⟨rfl, rfl, rfl, rfl, rfl, rfl, id⟩, fun h => absurd rfl h⟩
    · exact ⟨⟨rfl, rfl, rfl, rfl, rfl, rfl, fun _ => rfl⟩, fun h => absurd rfl h⟩
    · exact ledTaskSetPixel_keeps _ _ s
    · exact ⟨ledTaskSetPattern_keeps _ _ s, fun h => absurd rfl h⟩
    · split
      · exact ⟨.refl s, fun _ => rfl⟩
      · exact ⟨⟨rfl, rfl, rfl, rfl, rfl, rfl, fun _ => rfl⟩, fun h => absurd rfl h⟩
    · exact ⟨.refl s, fun _ => rfl⟩

/-! The states of the service that are reached. -/

/-- The task is in order, and the last status that was told whole is the present one. -/
structure LedService.Ok (s : LedService) : Prop where
  ok : s.task.strip.Ok
  started : s.task.started = true → s.task.strip.inited = true
  populated : s.task.strip.Populated
  coded : s.task.pattern.Coded
  last : ∀ bytes, s.lastStatus = some bytes → bytes = (refreshCachedStatus s.task).bytes

/-- The timer runs only over a strip that has been brought up. -/
theorem start_started (pinRc : Int) {s : LedTask} (hstarted : s.started = false) :
    (s.start pinRc).2.pattern = s.pattern ∧
      ((s.start pinRc).2.started = true → (s.start pinRc).2.strip.inited = true) := by
  have hcount : ¬(APP_LED_COUNT = 0 ∨ APP_LED_COUNT > LED_STRIP_MAX_COUNT) := by decide
  simp only [LedTask.start, hstarted, ledStripInitAs, if_neg hcount]
  by_cases hpin : pinRc = 0
  · subst hpin
    refine ⟨rfl, fun _ => ?_⟩
    simp only [ne_eq, not_true_eq_false, if_false]
    have hzero : (⟨APP_LED_COUNT, List.replicate LED_STRIP_MAX_COUNT COLOR_OFF, 0xFF, true,
        s.strip.sent⟩ : LedStrip).Ok := ⟨List.length_replicate, (by decide : 8 ≤ 64)⟩
    exact (alike_clear s.type hzero).inited
  · simp [hpin]

theorem init_ok_service (type : StripType) (pinRc : Int) : (LedService.init type pinRc).Ok := by
  have hpower : (LedTask.powerUp type).strip.Ok := ⟨List.length_replicate, Nat.zero_le _⟩
  obtain ⟨hpattern, hstarted⟩ := start_started pinRc (s := .powerUp type) rfl
  constructor
  · exact step_ok hpower (.start pinRc)
  · exact hstarted
  · exact step_populated hpower (fun h => by cases h) (.start pinRc)
  · rw [LedPattern.Coded, LedService.init, hpattern]
    rfl
  · intro bytes hlast
    cases hlast

/-- A status that is told whole becomes the last one. -/
theorem lastStatus_told (s : LedService) (status : LedStatus) (p : List UInt8) :
    LedService.lastStatus { s with status := status, told := s.told ++ [p] } =
      if p.length = 8 then some p else s.lastStatus := by
  by_cases hp : p.length = 8
  · simp [LedService.lastStatus, List.filter_append, hp]
  · simp [LedService.lastStatus, List.filter_append, hp]

/-- A read that gives as many bytes as the value has gives the value. -/
theorem btGattAttrRead_whole {value p : List UInt8} {len offset : UInt16} (hpos : value ≠ [])
    (hread : btGattAttrRead value len offset = .ok p) (hlen : p.length = value.length) :
    p = value := by
  have hvalue := List.length_pos_of_ne_nil hpos
  rw [btGattAttrRead] at hread
  split at hread
  · cases hread
  · obtain rfl := Except.ok.inj hread
    rw [List.length_take, List.length_drop] at hlen
    have hoffset : offset.toNat = 0 := by omega
    rw [hoffset, List.drop_zero, List.take_of_length_le (by omega)]

/-- A read of the status changes no more than what has been told. -/
theorem readStatus_task (s : LedService) (len offset : UInt16) :
    (s.readStatus len offset).task = s.task ∧
      ((s.readStatus len offset).lastStatus = s.lastStatus ∨
        (s.readStatus len offset).lastStatus = some (refreshCachedStatus s.task).bytes) := by
  simp only [LedService.readStatus]
  cases hread : btGattAttrRead (refreshCachedStatus s.task).bytes len offset with
  | error err => exact ⟨rfl, .inl rfl⟩
  | ok p =>
      refine ⟨rfl, ?_⟩
      rw [lastStatus_told]
      split
      · rename_i hp
        have hwhole := btGattAttrRead_whole (List.cons_ne_nil _ _) hread
          (hp.trans (bytes_length _).symm)
        exact .inr (congrArg some hwhole)
      · exact .inl rfl

/-- A write that is refused leaves the service as it is, and one that is taken tells
the new status. -/
theorem writeCmd_cases (s : LedService) (buf : List UInt8) (offset : UInt16) :
    ((∃ err, (s.writeCmd buf offset).2 = .error err) ∧ (s.writeCmd buf offset).1 = s) ∨
      ((∃ n, (s.writeCmd buf offset).2 = .ok n) ∧
        s.task.Keeps (s.writeCmd buf offset).1.task ∧
        (s.writeCmd buf offset).1.lastStatus =
          some (refreshCachedStatus (s.writeCmd buf offset).1.task).bytes) := by
  unfold LedService.writeCmd
  split
  · exact .inl ⟨⟨_, rfl⟩, rfl⟩
  · split
    · exact .inl ⟨⟨_, rfl⟩, rfl⟩
    · obtain ⟨hkeeps, hrejected⟩ := dispatchCmd_keeps buf s.task
      generalize dispatchCmd buf s.task = r at hkeeps hrejected
      obtain ⟨rc, task⟩ := r
      dsimp only at hkeeps hrejected ⊢
      split
      · rename_i hrc
        obtain rfl := hrejected hrc
        exact .inl ⟨⟨_, rfl⟩, rfl⟩
      · refine .inr ⟨⟨_, rfl⟩, hkeeps, ?_⟩
        exact lastStatus_told _ _ _

theorem LedTask.Steady.status {s s' : LedTask} (h : s.Steady s') :
    refreshCachedStatus s' = refreshCachedStatus s := by
  simp only [refreshCachedStatus, ledStripCount, h.pattern, h.color, h.strip.brightness,
    h.strip.inited, h.strip.count]

theorem tickFn_started (s : LedTask) : (tickFn s).started = s.started := by
  rw [tickFn]
  split
  · rfl
  · cases s.pattern with
    | off | solid | breathing | rainbow | strobe | other code => rfl

theorem ticks_started (n : Nat) (s : LedTask) : (ticks n s).started = s.started := by
  induction n with
  | zero => rfl
  | succ n ih =>
      rw [ticks, Function.iterate_succ_apply', tickFn_started]
      exact ih

/-- A tick comes only from the timer. -/
theorem tick_cases {s s' : LedService} (hstep : s.step .tick = some s') :
    s.task.started = true ∧ s' = { s with task := tickFn s.task } := by
  by_cases hstarted : s.task.started = true
  · exact ⟨hstarted, by simpa [LedService.step, hstarted] using hstep.symm⟩
  · simp [LedService.step, hstarted] at hstep

theorem step_ok_service {s s' : LedService} {e : ServiceEvent} (h : s.Ok)
    (hstep : s.step e = some s') : s'.Ok := by
  cases e with
  | write buf offset =>
      obtain rfl := Option.some.inj hstep
      rcases writeCmd_cases s buf offset with ⟨-, hsame⟩ | ⟨-, hkeeps, hlast⟩
      · rw [hsame]
        exact h
      · refine ⟨⟨hkeeps.length.trans h.ok.length, ?_⟩, ?_, ?_, hkeeps.coded h.coded, ?_⟩
        · rw [hkeeps.count]
          exact h.ok.count_le
        · intro hstarted
          rw [hkeeps.inited]
          exact h.started (hkeeps.started.symm.trans hstarted)
        · intro hinited
          rw [hkeeps.count]
          exact h.populated (hkeeps.inited.symm.trans hinited)
        · intro bytes hbytes
          exact Option.some.inj (hbytes.symm.trans hlast)
  | read len offset =>
      obtain rfl := Option.some.inj hstep
      obtain ⟨htask, hlast⟩ := readStatus_task s len offset
      constructor
      · rw [htask]
        exact h.ok
      · rw [htask]
        exact h.started
      · rw [htask]
        exact h.populated
      · rw [htask]
        exact h.coded
      · intro bytes hbytes
        rw [htask]
        rcases hlast with hlast | hlast
        · exact h.last bytes (hlast.symm.trans hbytes)
        · exact Option.some.inj (hbytes.symm.trans hlast)
  | tick =>
      obtain ⟨hstarted, rfl⟩ := tick_cases hstep
      have hsteady := tickFn_steady h.ok
      refine ⟨hsteady.strip.ok h.ok, ?_, hsteady.strip.populated h.populated, ?_, ?_⟩
      · intro _
        exact hsteady.strip.inited.trans (h.started hstarted)
      · show LedPattern.Coded (tickFn s.task).pattern
        rw [hsteady.pattern]
        exact h.coded
      · intro bytes hbytes
        rw [hsteady.status]
        exact h.last bytes hbytes

theorem run_ok_service {type : StripType} {pinRc : Int} {es : List ServiceEvent} {s : LedService}
    (hrun : ledSystem.exec (.init type pinRc) es = some s) : s.Ok := by
  have hstep : ∀ s e s', LedService.Ok s → ledSystem.step s e = some s' → s'.Ok :=
    fun _ _ _ h hnext => step_ok_service h hnext
  exact System.exec_invariant hstep (init_ok_service type pinRc) hrun

/-! While no command is taken, the status tells the frames. -/

theorem LedService.Ok.drawing {s : LedService} (h : s.Ok) (hstarted : s.task.started = true) :
    s.task.Drawing :=
  ⟨h.ok, h.started hstarted, h.populated (h.started hstarted)⟩

/-- The lamp of the present status shows what the task shows. -/
theorem lamp_frameAt {s : LedTask} (h : s.Drawing) (hcoded : s.pattern.Coded)
    (hknown : s.pattern.code.toNat ≤ 4) (i : Nat) :
    ((refreshCachedStatus s).lamp s.type s.tick).frameAt i = s.frameAt i := by
  have hcount := ledStripCount_toNat h.ok h.inited
  have hpattern : LedPattern.ofCode (refreshCachedStatus s).pattern = s.pattern := hcoded
  simp only [LedTask.frameAt, LedStatus.lamp, LedTask.tickAt, LedTask.colors, hpattern]
  cases hp : s.pattern with
  | off | solid | breathing | rainbow | strobe =>
      simp only [refreshCachedStatus, hcount]
  | other code =>
      exact absurd hp (not_other hcoded hknown code)

/-- What one step does while no command is taken. -/
theorem untouched_step {s s' : LedService} {e : ServiceEvent} (h : s.Ok)
    (huntouched : Untouched s e) (hstep : s.step e = some s') {bytes : List UInt8}
    (hlast : s.lastStatus = some bytes) :
    s'.task = ticks e.ticks s.task ∧ (e.ticks = 0 ∨ s.task.started = true) ∧
      s'.lastStatus = some bytes := by
  cases e with
  | write buf offset =>
      obtain rfl := Option.some.inj hstep
      obtain ⟨err, herr⟩ := huntouched buf offset rfl
      rcases writeCmd_cases s buf offset with ⟨-, hsame⟩ | ⟨⟨n, hn⟩, -⟩
      · rw [hsame]
        exact ⟨rfl, .inl rfl, hlast⟩
      · rw [herr] at hn
        cases hn
  | read len offset =>
      obtain rfl := Option.some.inj hstep
      obtain ⟨htask, hsame | hnew⟩ := readStatus_task s len offset
      · exact ⟨htask, .inl rfl, hsame.trans hlast⟩
      · refine ⟨htask, .inl rfl, hnew.trans ?_⟩
        rw [h.last bytes hlast]
  | tick =>
      obtain ⟨hstarted, rfl⟩ := tick_cases hstep
      exact ⟨rfl, .inr hstarted, hlast⟩

theorem untouched_run {es : List ServiceEvent} {s s' : LedService} (h : s.Ok)
    (huntouched : ledSystem.Meets Untouched s es) (hrun : ledSystem.exec s es = some s')
    {bytes : List UInt8} (hlast : s.lastStatus = some bytes) :
    s'.task = ticks (ticksIn es) s.task ∧ (ticksIn es = 0 ∨ s.task.started = true) ∧
      s'.lastStatus = some bytes := by
  induction es generalizing s with
  | nil =>
      obtain rfl := Option.some.inj hrun
      exact ⟨rfl, .inl rfl, hlast⟩
  | cons e es ih =>
      obtain ⟨mid, hmid, hrest⟩ := System.exec_cons_some hrun
      obtain ⟨hnow, hlater⟩ := huntouched mid hmid
      obtain ⟨htask, hticks, hlast'⟩ := untouched_step h hnow hmid hlast
      obtain ⟨htask', hticks', hlast''⟩ := ih (step_ok_service h hmid) hlater hrest hlast'
      have hsum : ticksIn (e :: es) = e.ticks + ticksIn es := rfl
      refine ⟨?_, ?_, hlast''⟩
      · rw [htask', htask, hsum, Nat.add_comm]
        exact (Function.iterate_add_apply tickFn (ticksIn es) e.ticks s.task).symm
      · rw [htask, ticks_started] at hticks'
        rcases hticks with hnow | hstarted
        · rw [hsum, hnow, Nat.zero_add]
          exact hticks'
        · exact .inr hstarted

/-- A client that has been told the whole status knows every frame of the strip until
the next command is taken, whatever is read or refused until then. `s_tick` tells how
long the pattern has been running. -/
theorem status_foretells_frames (type : StripType) (pinRc : Int) (es es' : List ServiceEvent)
    (s s' : LedService) (bytes : List UInt8)
    (hrun : ledSystem.exec (.init type pinRc) es = some s)
    (hlater : ledSystem.exec s es' = some s') (huntouched : ledSystem.Meets Untouched s es')
    (hlast : s.lastStatus = some bytes) :
    ∃ status, LedStatus.ofBytes bytes = some status ∧ s'.lastStatus = some bytes ∧
      (status.pattern.toNat ≤ 4 →
        s'.task.strip.sent = s.task.strip.sent ++
          (List.range (ticksIn es')).map (status.lamp s.task.type s.task.tick).frameAt) := by
  have h := run_ok_service hrun
  have hbytes := h.last bytes hlast
  obtain ⟨htask, hticks, hlast'⟩ := untouched_run h huntouched hlater hlast
  refine ⟨refreshCachedStatus s.task, ?_, hlast', ?_⟩
  · rw [hbytes]
    exact ofBytes_bytes _
  · intro hknown
    rw [htask]
    rcases hticks with hnone | hstarted
    · rw [hnone]
      exact (List.append_nil _).symm
    · have hdrawing := h.drawing hstarted
      rw [ticks_send hdrawing]
      congr 1
      apply List.map_congr_left
      intro i _
      exact (lamp_frameAt hdrawing h.coded hknown i).symm

/-- A strobe in warm white is set, and a tick later read in part. -/
def strobeEvents : List ServiceEvent :=
  [.write [0x06, 4, 20, 10, 0, 90] 0, .tick, .read 4 0]

/-- Two ticks, with a read and an unknown command between them. -/
def strobeLater : List ServiceEvent := [.tick, .read 23 0, .write [0x08] 0, .tick]

theorem status_foretells_frames_strobe :
    ∃ s s' status, ledSystem.exec (.init .sk6812 0) strobeEvents = some s ∧
      ledSystem.exec s strobeLater = some s' ∧
      LedStatus.ofBytes [4, 20, 10, 0, 90, 255, 8, 0] = some status ∧
      s'.task.strip.sent = s.task.strip.sent ++
        (List.range 2).map (status.lamp s.task.type s.task.tick).frameAt := by
  have huntouched : ∀ s, ledSystem.Meets Untouched s strobeLater := by
    intro s s₁ _
    refine ⟨(fun _ _ h => by cases h), fun s₂ _ => ⟨(fun _ _ h => by cases h), fun s₃ _ => ?_⟩⟩
    refine ⟨?_, fun s₄ _ => ⟨(fun _ _ h => by cases h), trivial⟩⟩
    rintro buf offset hwrite
    cases hwrite
    exact ⟨_, rfl⟩
  obtain ⟨status, hstatus, -, hframes⟩ := status_foretells_frames .sk6812 0 strobeEvents
    strobeLater _ _ [4, 20, 10, 0, 90, 255, 8, 0] rfl rfl (huntouched _) rfl
  refine ⟨_, _, status, rfl, rfl, hstatus, hframes ?_⟩
  obtain rfl := Option.some.inj hstatus
  decide

end Rw612.Led.Zephyr
