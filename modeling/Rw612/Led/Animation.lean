import Rw612.Led.Pattern

/-!
What the ticks of `led_task_zephyr.c` send while no command comes: the frames of
a pattern, which depend on the tick counter only by its remainder, until the
product `s_tick * 3u` overflows.
-/

namespace Rw612.Led.Zephyr

open Lib

/-- The colours that a tick gives to the LEDs; with an unknown pattern it leaves
them as they are. -/
def LedTask.colors (s : LedTask) (tick : UInt32) : List RgbwColor :=
  match s.pattern with
  | .off => List.replicate s.strip.count COLOR_OFF
  | .solid => List.replicate s.strip.count (toRgbw s.color)
  | .breathing => List.replicate s.strip.count (breathingColor tick s.color)
  | .rainbow => (List.range s.strip.count).map (rainbowColor tick s.color s.strip.count)
  | .strobe => List.replicate s.strip.count (strobeColor tick s.color)
  | .other _ => s.strip.pixels.take s.strip.count

/-- After so many ticks a pattern begins again. -/
def LedPattern.period : LedPattern → Nat
  | .off | .solid | .other _ => 1
  | .breathing => BREATHING_TICKS
  | .rainbow => 120
  | .strobe => 2 * STROBE_TICKS

/-- The tick counter after `n` ticks; the off pattern does not count. -/
def LedTask.tickAt (s : LedTask) (n : Nat) : UInt32 :=
  if s.pattern = .off then s.tick else s.tick + UInt32.ofNat n

/-- The frame of a strip of these colours. -/
def frameOf (type : StripType) (brightness : UInt8) (colors : List RgbwColor) : List Bool :=
  LedStrip.frame type ⟨colors.length, colors, brightness, true, []⟩

/-- The frame of the tick after `n` others. -/
def LedTask.frameAt (s : LedTask) (n : Nat) : List Bool :=
  frameOf s.type s.strip.brightness (s.colors (s.tickAt n))

/-- A strip that a tick draws on. -/
structure LedTask.Drawing (s : LedTask) : Prop where
  ok : s.strip.Ok
  inited : s.strip.inited = true
  count : s.strip.count ≠ 0

theorem LedTask.Drawing.count_ne_zero {s : LedTask} (h : s.Drawing) :
    ledStripCount s.strip ≠ 0 :=
  ledStripCount_ne_zero h.ok h.inited h.count

theorem frame_eq (type : StripType) {s : LedStrip} (hok : s.Ok) :
    s.frame type = frameOf type s.brightness (s.pixels.take s.count) := by
  have hlen : (s.pixels.take s.count).length = s.count := by
    have hle := hok.count_le
    rw [List.length_take, hok.length]
    omega
  rw [frameOf, hlen]
  cases type with
  | sk6812 => simp only [LedStrip.frame, List.take_take, Nat.min_self]
  | apa102 => simp only [LedStrip.frame, List.take_take, Nat.min_self]

/-! One tick. -/

theorem colors_length {s : LedTask} (hok : s.strip.Ok) (tick : UInt32) :
    (s.colors tick).length = s.strip.count := by
  have hle := hok.count_le
  cases hpattern : s.pattern with
  | off | solid | breathing | strobe => simp [LedTask.colors, hpattern]
  | rainbow => simp [LedTask.colors, hpattern]
  | other code =>
      simp only [LedTask.colors, hpattern, List.length_take, hok.length]
      omega

/-- The loop of the rainbow pattern colours one LED after the other. -/
theorem rainbow_loop {s : LedStrip} (hok : s.Ok) (hinited : s.inited = true)
    (f : Nat → RgbwColor) {n : Nat} (hn : n ≤ s.count) :
    (List.range n).foldl (fun strip i => (ledStripSetPixel i (f i) strip).2) s =
      { s with pixels := (List.range n).map f ++ s.pixels.drop n } := by
  induction n with
  | zero => rfl
  | succ n ih =>
      have hle := hok.count_le
      have hlen : n < s.pixels.length := by
        rw [hok.length]
        omega
      have hinside : ¬(!s.inited || decide (n ≥ s.count)) = true := by
        simp [hinited]
        omega
      have hset : ((List.range n).map f ++ s.pixels.drop n).set n (f n) =
          (List.range n).map f ++ f n :: s.pixels.drop (n + 1) := by
        rw [List.set_append_right _ _ (by simp), List.length_map, List.length_range,
          Nat.sub_self, List.drop_eq_getElem_cons hlen, List.set_cons_zero]
      rw [List.range_succ, List.foldl_append, ih (by omega), List.foldl_cons, List.foldl_nil,
        ledStripSetPixel, if_neg hinside, hset]
      simp

/-- The strip of a tick before it is sent. -/
def LedTask.drawn (s : LedTask) : LedStrip :=
  { s.strip with pixels := s.colors s.tick ++ s.strip.pixels.drop s.strip.count }

theorem tickFn_strip {s : LedTask} (h : s.Drawing) :
    (tickFn s).strip = (ledStripRefreshAs s.type s.drawn).2 := by
  have hfill : ∀ c, (ledStripFill c s.strip).2 = s.strip.filled c := by
    intro c
    rw [ledStripFill, if_pos h.inited]
    rfl
  rw [tickFn, if_neg h.count_ne_zero, LedTask.drawn, LedTask.colors]
  cases hpattern : s.pattern with
  | off =>
      simp only [ledStripClearAs, if_pos h.inited]
  | solid | breathing | strobe => simp only [LedTask.send, hfill, LedStrip.filled]
  | rainbow =>
      have hloop := rainbow_loop h.ok h.inited (rainbowColor s.tick s.color s.strip.count)
        (Nat.le_refl s.strip.count)
      simp only [LedTask.send, rainbowPixels, ledStripCount_toNat h.ok h.inited, hloop]
  | other code => simp only [LedTask.send, List.take_append_drop]

theorem drawn_ok {s : LedTask} (hok : s.strip.Ok) : s.drawn.Ok where
  length := by
    have hle := hok.count_le
    simp only [LedTask.drawn, List.length_append, colors_length hok, List.length_drop,
      hok.length]
    omega
  count_le := hok.count_le

theorem drawn_pixels {s : LedTask} (hok : s.strip.Ok) :
    s.drawn.pixels.take s.strip.count = s.colors s.tick :=
  List.take_left' (colors_length hok s.tick)

/-- What a tick does: it sends the frame of the pattern. -/
theorem tick_sends {s : LedTask} (h : s.Drawing) :
    (tickFn s).strip = { s.drawn with sent := s.strip.sent ++ [s.frameAt 0] } := by
  have hframe : s.drawn.frame s.type = s.frameAt 0 := by
    have htick : s.tickAt 0 = s.tick := by
      simp [LedTask.tickAt]
    rw [frame_eq s.type (drawn_ok h.ok), LedTask.frameAt, htick, ← drawn_pixels h.ok]
    rfl
  rw [tickFn_strip h, refresh_sends s.type (s := s.drawn) h.inited, hframe]
  rfl

theorem tickFn_steady {s : LedTask} (hok : s.strip.Ok) : s.Steady (tickFn s) := by
  have halike := alike_tick hok
  by_cases hcount : ledStripCount s.strip = 0
  · rw [tickFn, if_pos hcount] at halike ⊢
    exact ⟨rfl, rfl, rfl, halike⟩
  · rw [tickFn, if_neg hcount] at halike ⊢
    cases hpattern : s.pattern with
    | off | solid | breathing | rainbow | strobe | other code =>
        rw [hpattern] at halike
        exact ⟨rfl, hpattern.symm ▸ rfl, rfl, halike⟩

theorem tickFn_tick {s : LedTask} (hcount : ledStripCount s.strip ≠ 0) :
    (tickFn s).tick = s.tickAt 1 := by
  rw [tickFn, if_neg hcount, LedTask.tickAt]
  cases s.pattern with
  | off => rfl
  | solid | breathing | rainbow | strobe | other code => rfl

/-- A tick leaves the colours of the ticks after it. -/
theorem tickFn_colors {s : LedTask} (h : s.Drawing) (tick : UInt32) :
    (tickFn s).colors tick = s.colors tick := by
  have hsteady := tickFn_steady h.ok
  rw [LedTask.colors, LedTask.colors, hsteady.pattern, hsteady.color, hsteady.strip.count]
  cases hpattern : s.pattern with
  | off | solid | breathing | rainbow | strobe => rfl
  | other code =>
      have hcolors : s.colors s.tick = s.strip.pixels.take s.strip.count := by
        rw [LedTask.colors, hpattern]
      dsimp only
      rw [tick_sends h, ← hcolors, ← drawn_pixels h.ok]

theorem tickFn_drawing {s : LedTask} (h : s.Drawing) : (tickFn s).Drawing where
  ok := (tickFn_steady h.ok).strip.ok h.ok
  inited := (tickFn_steady h.ok).strip.inited.trans h.inited
  count := by
    rw [(tickFn_steady h.ok).strip.count]
    exact h.count

theorem tickFn_frameAt {s : LedTask} (h : s.Drawing) (n : Nat) :
    (tickFn s).frameAt n = s.frameAt (n + 1) := by
  have hsteady := tickFn_steady h.ok
  have htick : (tickFn s).tickAt n = s.tickAt (n + 1) := by
    rw [LedTask.tickAt, LedTask.tickAt, hsteady.pattern, tickFn_tick h.count_ne_zero,
      LedTask.tickAt]
    split
    · rfl
    · rw [UInt32.add_assoc, ← UInt32.ofNat_add, Nat.add_comm 1 n]
  rw [LedTask.frameAt, LedTask.frameAt, htick, hsteady.type, hsteady.strip.brightness,
    tickFn_colors h]

/-! The frames of a run of ticks. -/

theorem ticks_send {s : LedTask} (h : s.Drawing) (n : Nat) :
    (ticks n s).strip.sent = s.strip.sent ++ (List.range n).map s.frameAt := by
  induction n generalizing s with
  | zero => simp [ticks]
  | succ n ih =>
      have hsent : (tickFn s).strip.sent = s.strip.sent ++ [s.frameAt 0] := by
        rw [tick_sends h]
      have hnext := ih (tickFn_drawing h)
      rw [hsent] at hnext
      rw [ticks, Function.iterate_succ_apply]
      rw [ticks] at hnext
      rw [hnext, List.range_succ_eq_map, List.map_cons, List.map_map, List.append_assoc,
        List.singleton_append]
      congr 2
      apply List.map_congr_left
      intro i _
      exact tickFn_frameAt h i

theorem colors_periodic {s : LedTask} {t t' : UInt32}
    (h : t'.toNat = t.toNat + s.pattern.period) (hsmall : 3 * t'.toNat < 2 ^ 32) :
    s.colors t' = s.colors t := by
  rw [LedTask.colors, LedTask.colors]
  cases hpattern : s.pattern with
  | off | solid | other code => rfl
  | breathing =>
      have henv : breathingEnv t' = breathingEnv t := by
        rw [breathingEnv, breathingEnv, h, hpattern, LedPattern.period, Nat.add_mod_right]
      simp only [breathingColor, henv]
  | rainbow =>
      rw [hpattern, LedPattern.period] at h
      have hmul : ∀ u : UInt32, 3 * u.toNat < 2 ^ 32 → (u * 3).toNat = 3 * u.toNat := by
        intro u hu
        rw [UInt32.toNat_mul, Nat.mul_comm, Nat.mod_eq_of_lt]
        · rfl
        · exact hu
      have hhue : (t' * 3).toNat % 360 = (t * 3).toNat % 360 := by
        rw [hmul t' hsmall, hmul t (by omega), h]
        omega
      apply List.map_congr_left
      intro i _
      simp only [rainbowColor, hhue]
  | strobe =>
      have hphase : t'.toNat / STROBE_TICKS % 2 = t.toNat / STROBE_TICKS % 2 := by
        rw [hpattern, LedPattern.period] at h
        rw [STROBE_TICKS] at *
        omega
      simp only [strobeColor, hphase]

theorem frameAt_periodic {s : LedTask} {i : Nat}
    (hsmall : 3 * (s.tick.toNat + i + s.pattern.period) < 2 ^ 32) :
    s.frameAt (i + s.pattern.period) = s.frameAt i := by
  rw [LedTask.frameAt, LedTask.frameAt]
  congr 1
  by_cases hoff : s.pattern = .off
  · rw [LedTask.tickAt, LedTask.tickAt, if_pos hoff, if_pos hoff]
  · have hat : ∀ n, 3 * (s.tick.toNat + n) < 2 ^ 32 →
        (s.tickAt n).toNat = s.tick.toNat + n := by
      intro n hn
      rw [LedTask.tickAt, if_neg hoff, UInt32.toNat_add, UInt32.toNat_ofNat']
      omega
    have hlate := hat (i + s.pattern.period) (by omega)
    have hearly := hat i (by omega)
    exact colors_periodic (by omega) (by omega)

/-! The states that are reached. -/

/-- A strip that has been brought up has LEDs. -/
def LedStrip.Populated (s : LedStrip) : Prop := s.inited = true → s.count ≠ 0

theorem LedStrip.Alike.populated {s s' : LedStrip} (h : s.Alike s') (hs : s.Populated) :
    s'.Populated := by
  intro hinited
  rw [h.count]
  exact hs (h.inited.symm.trans hinited)

theorem init_populated (type : StripType) (count : Nat) (brightness : UInt8) (pinRc : Int)
    {s : LedStrip} (hs : s.Populated) :
    (ledStripInitAs type count brightness pinRc s).2.Populated := by
  unfold ledStripInitAs
  split
  · exact hs
  · rename_i hcount
    dsimp only
    split
    · intro hinited
      cases hinited
    · have hzero : ({ s with
          count := count
          brightness := brightness
          inited := true
          pixels := List.replicate LED_STRIP_MAX_COUNT COLOR_OFF } : LedStrip).Ok :=
        ⟨List.length_replicate, by show count ≤ _; omega⟩
      exact (alike_clear type hzero).populated (fun _ => by show count ≠ 0; omega)

theorem step_populated {s : LedTask} (hok : s.strip.Ok) (hs : s.strip.Populated) (e : Step) :
    (s.step e).strip.Populated := by
  cases e with
  | start pinRc =>
      have hinit := init_populated s.type APP_LED_COUNT 0xFF pinRc hs
      simp only [LedTask.step, LedTask.start]
      split
      · exact hs
      · generalize ledStripInitAs s.type APP_LED_COUNT 0xFF pinRc s.strip = r at hinit
        obtain ⟨rc, strip⟩ := r
        dsimp only
        split
        · exact hinit
        · exact hinit
  | command buf =>
      simp only [LedTask.step, dispatchCmd]
      split
      · exact hs
      · split
        · exact hs
        · exact hs
        · exact hs
        · exact hs
        · exact (alike_setPixel s.strip _ _).populated hs
        · exact hs
        · split
          · exact hs
          · exact hs
        · exact hs
  | tick => exact (alike_tick hok).populated hs

theorem run_drawing (type : StripType) (es : List Step)
    (hinited : (es.foldl LedTask.step (.powerUp type)).strip.inited = true) :
    (es.foldl LedTask.step (.powerUp type)).Drawing := by
  have hrun : ∀ s : LedTask, s.strip.Ok → s.strip.Populated →
      (es.foldl LedTask.step s).strip.Populated := by
    clear hinited
    induction es with
    | nil => exact fun s _ hs => hs
    | cons e es ih => exact fun s hok hs => ih _ (step_ok hok e) (step_populated hok hs e)
  exact ⟨run_ok type es, hinited,
    hrun _ ⟨List.length_replicate, Nat.zero_le _⟩ (fun h => by cases h) hinited⟩

/-- From every state that is reached with the strip brought up, `n` ticks send `n`
frames. LED after LED they show the colours of the pattern under the brightness,
and they repeat with its period. -/
theorem animation_periodic (type : StripType) (es : List Step) (n : Nat)
    (hinited : (es.foldl LedTask.step (.powerUp type)).strip.inited = true) :
    let s := es.foldl LedTask.step (.powerUp type)
    ∃ frames : List (List Bool),
      (ticks n s).strip.sent = s.strip.sent ++ frames ∧ frames.length = n ∧
      (∀ i frame idx c, frames[i]? = some frame → (s.colors (s.tickAt i))[idx]? = some c →
        ((wireBytes frame).drop (frameStart s.type + 4 * idx)).take 4 =
          ledGroup s.type s.strip.brightness c) ∧
      ∀ i, i + s.pattern.period < n → 3 * (s.tick.toNat + n) < 2 ^ 32 →
        frames[i + s.pattern.period]? = frames[i]? := by
  intro s
  have h : s.Drawing := run_drawing type es hinited
  have hget : ∀ i, i < n → ((List.range n).map s.frameAt)[i]? = some (s.frameAt i) := by
    intro i hi
    rw [List.getElem?_map, List.getElem?_range hi, Option.map_some]
  refine ⟨(List.range n).map s.frameAt, ticks_send h n, by simp, ?_, ?_⟩
  · intro i frame idx c hframe hc
    have hi : i < n := by
      obtain ⟨hlt, -⟩ := List.getElem?_eq_some_iff.mp hframe
      simpa using hlt
    obtain rfl : s.frameAt i = frame := Option.some.inj ((hget i hi).symm.trans hframe)
    obtain ⟨hidx, -⟩ := List.getElem?_eq_some_iff.mp hc
    exact frame_slice s.type (s := ⟨_, s.colors (s.tickAt i), _, true, []⟩) hidx hc
  · intro i hi hsmall
    rw [hget _ hi, hget i (by omega), frameAt_periodic (by omega)]

/-- A strip is started and shows a rainbow at half brightness. -/
def rainbowSteps : List Step :=
  [.start 0, .command [0x06, 3, 0, 0, 0, 9], .command [0x03, 128], .tick, .tick]

def rainbowStrip : LedTask := rainbowSteps.foldl LedTask.step (.powerUp .sk6812)

theorem animation_periodic_rainbow :
    ∃ frames : List (List Bool),
      (ticks 250 rainbowStrip).strip.sent = rainbowStrip.strip.sent ++ frames ∧
      frames.length = 250 ∧ ∀ i, i + 120 < 250 → frames[i + 120]? = frames[i]? := by
  have hinited : rainbowStrip.strip.inited = true := rfl
  have hpattern : rainbowStrip.pattern = .rainbow := rfl
  have htick : rainbowStrip.tick = 2 := rfl
  obtain ⟨frames, hsent, hlen, -, hperiodic⟩ :=
    animation_periodic .sk6812 rainbowSteps 250 hinited
  rw [← rainbowStrip] at hsent hperiodic
  rw [hpattern, htick] at hperiodic
  exact ⟨frames, hsent, hlen, fun i hi => hperiodic i hi (by decide)⟩

end Rw612.Led.Zephyr
