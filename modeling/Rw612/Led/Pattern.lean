import Mathlib.Logic.Function.Iterate
import Rw612.Led.Zephyr

/-!
The animation tick of `led_task_zephyr.c` over the strip of `led_strip_zephyr.c`,
for both strip types, with the commands of `svc_led.c` that reach it. The setters
and the tick share the pixels of the strip; every tick sends one frame.
-/

namespace Rw612.Led.Zephyr

open Lib

/-- `led_strip_type_t`. -/
inductive StripType where
  | sk6812
  | apa102
  deriving DecidableEq

/-- The four bytes of one LED of an APA102 strip. -/
def apa102Led (brightness : UInt8) (c : RgbwColor) : List UInt8 :=
  [(0xE0 : UInt8) ||| ((brightness >>> 3) &&& 0x1F), applyBrightness brightness c.b,
    applyBrightness brightness c.g, applyBrightness brightness c.r]

/-- `apa102_refresh`: start frame, LED frames, end frame. -/
def apa102Refresh (s : LedStrip) : Int × LedStrip :=
  let bytes := List.replicate 4 0x00 ++ (s.pixels.take s.count).flatMap (apa102Led s.brightness) ++
    List.replicate (s.count / 2 + 2) 0xFF
  (0, { s with sent := s.sent ++ [bytes.flatMap sendByte] })

/-- `led_strip_refresh` for a strip of either type. -/
def ledStripRefreshAs (type : StripType) (s : LedStrip) : Int × LedStrip :=
  if s.inited then
    match type with
    | .sk6812 => stripRefresh s
    | .apa102 => apa102Refresh s
  else (EAGAIN, s)

def ledStripClearAs (type : StripType) (s : LedStrip) : Int × LedStrip :=
  if s.inited then
    ledStripRefreshAs type { s with
      pixels := List.replicate s.count COLOR_OFF ++ s.pixels.drop s.count }
  else (EAGAIN, s)

def ledStripInitAs (type : StripType) (count : Nat) (brightness : UInt8) (pinRc : Int)
    (s : LedStrip) : Int × LedStrip :=
  if count = 0 ∨ count > LED_STRIP_MAX_COUNT then (EINVAL, s)
  else
    let s := { s with
      count := count
      brightness := brightness
      inited := false
      pixels := List.replicate LED_STRIP_MAX_COUNT COLOR_OFF }
    if pinRc ≠ 0 then (pinRc, s) else (0, (ledStripClearAs type { s with inited := true }).2)

/-- A strip of type SK6812 is the one of the other module. -/
theorem ledStripInitAs_sk6812 (count : Nat) (brightness : UInt8) (pinRc : Int) (s : LedStrip) :
    ledStripInitAs .sk6812 count brightness pinRc s = ledStripInit count brightness pinRc s := rfl

/-- `led_pattern_t`; a client may send any byte. -/
inductive LedPattern where
  | off
  | solid
  | breathing
  | rainbow
  | strobe
  | other (code : UInt8)
  deriving DecidableEq

def LedPattern.ofCode (code : UInt8) : LedPattern :=
  match code.toNat with
  | 0 => .off
  | 1 => .solid
  | 2 => .breathing
  | 3 => .rainbow
  | 4 => .strobe
  | _ => .other code

/-- The variables of `led_task_zephyr.c`, with the strip they drive. -/
structure LedTask where
  type : StripType
  started : Bool
  pattern : LedPattern
  color : Sk6812Color
  sleepPreset : Nat
  sleepPct : UInt8
  tick : UInt32
  strip : LedStrip
  deriving DecidableEq

def LedTask.powerUp (type : StripType) : LedTask where
  type := type
  started := false
  pattern := .off
  color := SK6812_OFF
  sleepPreset := 0
  sleepPct := 0
  tick := 0
  strip := LedStrip.powerUp

/-! The tick. -/

def BREATHING_TICKS : Nat := 200
def STROBE_TICKS : Nat := 5

/-- No product of the source exceeds its type, and no difference is negative. -/
def hsvToRgb (h : Nat) (s v : UInt8) : RgbwColor :=
  if s = 0 then ⟨v, v, v, 0⟩
  else
    let region := h / 60
    let remain := h % 60
    let p := UInt8.ofNat (v.toNat * (255 - s.toNat) / 255)
    let q := UInt8.ofNat (v.toNat * (255 - s.toNat * remain / 60) / 255)
    let t := UInt8.ofNat (v.toNat * (255 - s.toNat * (60 - remain) / 60) / 255)
    match region with
    | 0 => ⟨v, t, p, 0⟩
    | 1 => ⟨q, v, p, 0⟩
    | 2 => ⟨p, v, t, 0⟩
    | 3 => ⟨p, q, v, 0⟩
    | 4 => ⟨t, p, v, 0⟩
    | _ => ⟨v, p, q, 0⟩

/-- The envelope of the breathing pattern. -/
def breathingEnv (tick : UInt32) : Nat :=
  let phase := tick.toNat % BREATHING_TICKS
  if phase < BREATHING_TICKS / 2 then phase * 255 / (BREATHING_TICKS / 2)
  else (BREATHING_TICKS - phase) * 255 / (BREATHING_TICKS / 2)

def envChannel (env : Nat) (ch : UInt8) : UInt8 := UInt8.ofNat (ch.toNat * env / 255)

def breathingColor (tick : UInt32) (color : Sk6812Color) : RgbwColor :=
  let env := breathingEnv tick
  let c := toRgbw color
  ⟨envChannel env c.r, envChannel env c.g, envChannel env c.b, envChannel env c.w⟩

def rainbowColor (tick : UInt32) (color : Sk6812Color) (count i : Nat) : RgbwColor :=
  let hueBase := (tick * 3).toNat % 360
  { hsvToRgb ((hueBase + i * 360 / count) % 360) 255 255 with w := color.w }

/-- The loop of the rainbow pattern. -/
def rainbowPixels (count : Nat) (s : LedTask) : LedStrip :=
  (List.range count).foldl
    (fun strip i => (ledStripSetPixel i (rainbowColor s.tick s.color count i) strip).2)
    s.strip

def strobeColor (tick : UInt32) (color : Sk6812Color) : RgbwColor :=
  if tick.toNat / STROBE_TICKS % 2 = 0 then toRgbw color else COLOR_OFF

/-- The end of `tick_fn`. -/
def LedTask.send (s : LedTask) (strip : LedStrip) : LedTask :=
  { s with strip := (ledStripRefreshAs s.type strip).2, tick := s.tick + 1 }

def tickFn (s : LedTask) : LedTask :=
  let count := ledStripCount s.strip
  if count = 0 then s
  else
    match s.pattern with
    | .off => { s with strip := (ledStripClearAs s.type s.strip).2 }
    | .solid => s.send (ledStripFill (toRgbw s.color) s.strip).2
    | .breathing => s.send (ledStripFill (breathingColor s.tick s.color) s.strip).2
    | .rainbow => s.send (rainbowPixels count.toNat s)
    | .strobe => s.send (ledStripFill (strobeColor s.tick s.color) s.strip).2
    | .other _ => s.send s.strip

def ticks (n : Nat) (s : LedTask) : LedTask := tickFn^[n] s

/-! The setters. -/

/-- `led_task_start` -/
def LedTask.start (pinRc : Int) (s : LedTask) : Int × LedTask :=
  if s.started then (0, s)
  else
    match ledStripInitAs s.type APP_LED_COUNT 0xFF pinRc s.strip with
    | (rc, strip) =>
        if rc ≠ 0 then (rc, { s with strip := strip })
        else (0, { s with strip := strip, started := true })

def ledTaskSetPattern (p : LedPattern) (base : Sk6812Color) (s : LedTask) : LedTask :=
  { s with pattern := p, color := base, tick := 0 }

def ledTaskSetColor (base : Sk6812Color) (s : LedTask) : LedTask := { s with color := base }

def ledTaskSetBrightness (br : UInt8) (s : LedTask) : LedTask :=
  { s with strip := ledStripSetBrightness br s.strip }

def ledTaskSetPixel (idx : UInt16) (c : Sk6812Color) (s : LedTask) : Int × LedTask :=
  match ledStripSetPixel idx.toNat (toRgbw c) s.strip with
  | (rc, strip) => (rc, { s with strip := strip })

def sleepLightPresetTable : List Sk6812Color :=
  [⟨0, 0, 0, 0⟩, ⟨4, 1, 0, 0⟩, ⟨10, 0, 0, 0⟩, ⟨22, 6, 0, 0⟩, ⟨30, 12, 0, 0⟩, ⟨38, 18, 0, 0⟩,
    ⟨45, 22, 0, 4⟩, ⟨35, 20, 2, 6⟩]

/-- `sleep_light_color`, with the clamp of `sleep_light_get_scaled`. -/
def sleepLightColor (preset : Nat) (pct : UInt8) : Sk6812Color :=
  match sleepLightPresetTable[preset]? with
  | none => SK6812_OFF
  | some peak =>
      let pct := min pct 100
      ⟨scaledChannel peak.r pct, scaledChannel peak.g pct, scaledChannel peak.b pct,
        scaledChannel peak.w pct⟩

def ledTaskSetSleepLight (preset : Nat) (pct : UInt8) (s : LedTask) : LedTask :=
  { s with
    sleepPreset := preset
    sleepPct := pct
    pattern := .solid
    color := sleepLightColor preset pct }

/-- `dispatch_cmd` of the BLE service. -/
def dispatchCmd (buf : List UInt8) (s : LedTask) : Int × LedTask :=
  match buf with
  | [] => (-1, s)
  | op :: p =>
      match op.toNat, p with
      | 0x01, pat :: _ => (0, ledTaskSetPattern (.ofCode pat) s.color s)
      | 0x02, r :: g :: b :: w :: _ => (0, ledTaskSetColor ⟨r, g, b, w⟩ s)
      | 0x03, br :: _ => (0, ledTaskSetBrightness br s)
      | 0x04, _ => (0, ledTaskSetPattern .off SK6812_OFF s)
      | 0x05, lo :: hi :: r :: g :: b :: w :: _ =>
          ledTaskSetPixel (lo.toUInt16 ||| (hi.toUInt16 <<< 8)) ⟨r, g, b, w⟩ s
      | 0x06, pat :: r :: g :: b :: w :: _ =>
          (0, ledTaskSetPattern (.ofCode pat) ⟨r, g, b, w⟩ s)
      | 0x07, preset :: pct :: _ =>
          if sleepLightPresetTable.length ≤ preset.toNat then (-2, s)
          else (0, ledTaskSetSleepLight preset.toNat pct s)
      | code, _ => (if 0x01 ≤ code ∧ code ≤ 0x07 then -1 else -2, s)

inductive Step where
  | start (pinRc : Int)
  | command (buf : List UInt8)
  | tick
  deriving DecidableEq

def LedTask.step (s : LedTask) : Step → LedTask
  | .start pinRc => (s.start pinRc).2
  | .command buf => (dispatchCmd buf s).2
  | .tick => tickFn s

/-! The strip in memory. -/

/-- The array has its length, and the LEDs are part of it. -/
structure LedStrip.Ok (s : LedStrip) : Prop where
  length : s.pixels.length = LED_STRIP_MAX_COUNT
  count_le : s.count ≤ LED_STRIP_MAX_COUNT

theorem ledStripCount_toNat {s : LedStrip} (hok : s.Ok) (hinited : s.inited = true) :
    (ledStripCount s).toNat = s.count := by
  have hle := hok.count_le
  rw [ledStripCount, if_pos hinited, UInt16.toNat_ofNat']
  apply Nat.mod_eq_of_lt
  rw [LED_STRIP_MAX_COUNT] at hle
  omega

theorem ledStripCount_ne_zero {s : LedStrip} (hok : s.Ok) (hinited : s.inited = true)
    (hcount : s.count ≠ 0) : ledStripCount s ≠ 0 := by
  intro hzero
  have htoNat := ledStripCount_toNat hok hinited
  rw [hzero] at htoNat
  exact hcount htoNat.symm

/-- The first `count` pixels in one colour. -/
def LedStrip.filled (s : LedStrip) (c : RgbwColor) : LedStrip :=
  { s with pixels := List.replicate s.count c ++ s.pixels.drop s.count }

/-- All but the colours of the pixels and the frames sent. -/
structure LedStrip.Alike (s s' : LedStrip) : Prop where
  count : s'.count = s.count
  brightness : s'.brightness = s.brightness
  inited : s'.inited = s.inited
  length : s'.pixels.length = s.pixels.length

theorem LedStrip.Alike.refl (s : LedStrip) : s.Alike s := ⟨rfl, rfl, rfl, rfl⟩

theorem LedStrip.Alike.trans {s s' s'' : LedStrip} (h : s.Alike s') (h' : s'.Alike s'') :
    s.Alike s'' where
  count := h'.count.trans h.count
  brightness := h'.brightness.trans h.brightness
  inited := h'.inited.trans h.inited
  length := h'.length.trans h.length

theorem LedStrip.Alike.ok {s s' : LedStrip} (h : s.Alike s') (hok : s.Ok) : s'.Ok where
  length := h.length.trans hok.length
  count_le := h.count ▸ hok.count_le

theorem alike_filled {s : LedStrip} (hok : s.Ok) (c : RgbwColor) : s.Alike (s.filled c) := by
  refine ⟨rfl, rfl, rfl, ?_⟩
  have hcount := hok.count_le
  simp only [LedStrip.filled, List.length_append, List.length_replicate, List.length_drop,
    hok.length]
  omega

theorem alike_setPixel (s : LedStrip) (idx : Nat) (c : RgbwColor) :
    s.Alike (ledStripSetPixel idx c s).2 := by
  unfold ledStripSetPixel
  split
  · exact .refl s
  · exact ⟨rfl, rfl, rfl, List.length_set⟩

theorem alike_fill {s : LedStrip} (hok : s.Ok) (c : RgbwColor) :
    s.Alike (ledStripFill c s).2 := by
  unfold ledStripFill
  split
  · exact alike_filled hok c
  · exact .refl s

theorem alike_refresh (type : StripType) (s : LedStrip) :
    s.Alike (ledStripRefreshAs type s).2 := by
  unfold ledStripRefreshAs
  split
  · cases type with
    | sk6812 => exact ⟨rfl, rfl, rfl, rfl⟩
    | apa102 => exact ⟨rfl, rfl, rfl, rfl⟩
  · exact .refl s

theorem alike_clear (type : StripType) {s : LedStrip} (hok : s.Ok) :
    s.Alike (ledStripClearAs type s).2 := by
  unfold ledStripClearAs
  split
  · exact (alike_filled hok COLOR_OFF).trans (alike_refresh type _)
  · exact .refl s

theorem alike_rainbow (count : Nat) (s : LedTask) :
    s.strip.Alike (rainbowPixels count s) := by
  unfold rainbowPixels
  have hloop : ∀ (is : List Nat) (strip : LedStrip), strip.Alike (is.foldl
      (fun strip i => (ledStripSetPixel i (rainbowColor s.tick s.color count i) strip).2)
      strip) := by
    intro is
    induction is with
    | nil => exact .refl
    | cons i is ih => exact fun strip => (alike_setPixel strip i _).trans (ih _)
  exact hloop _ s.strip

/-- A tick leaves the strip as it is, but for the colours and the frames. -/
theorem alike_tick {s : LedTask} (hok : s.strip.Ok) : s.strip.Alike (tickFn s).strip := by
  unfold tickFn
  dsimp only
  split
  · exact .refl s.strip
  · split
    · exact alike_clear s.type hok
    · exact (alike_fill hok _).trans (alike_refresh s.type _)
    · exact (alike_fill hok _).trans (alike_refresh s.type _)
    · exact (alike_rainbow _ s).trans (alike_refresh s.type _)
    · exact (alike_fill hok _).trans (alike_refresh s.type _)
    · exact alike_refresh s.type s.strip

theorem init_ok (type : StripType) (count : Nat) (brightness : UInt8) (pinRc : Int)
    {s : LedStrip} (hok : s.Ok) : (ledStripInitAs type count brightness pinRc s).2.Ok := by
  unfold ledStripInitAs
  split
  · exact hok
  · rename_i hcount
    have hle : count ≤ LED_STRIP_MAX_COUNT := by omega
    dsimp only
    split
    · exact ⟨List.length_replicate, hle⟩
    · have hzero : ({ s with
          count := count
          brightness := brightness
          inited := true
          pixels := List.replicate LED_STRIP_MAX_COUNT COLOR_OFF } : LedStrip).Ok :=
        ⟨List.length_replicate, hle⟩
      exact (alike_clear type hzero).ok hzero

/-- No step loses the array. -/
theorem step_ok {s : LedTask} (hok : s.strip.Ok) (e : Step) : (s.step e).strip.Ok := by
  cases e with
  | start pinRc =>
      have hinit := init_ok s.type APP_LED_COUNT 0xFF pinRc hok
      simp only [LedTask.step, LedTask.start]
      split
      · exact hok
      · generalize ledStripInitAs s.type APP_LED_COUNT 0xFF pinRc s.strip = r at hinit
        obtain ⟨rc, strip⟩ := r
        dsimp only
        split
        · exact hinit
        · exact hinit
  | command buf =>
      simp only [LedTask.step, dispatchCmd]
      split
      · exact hok
      · split
        · exact hok
        · exact hok
        · exact ⟨hok.length, hok.count_le⟩
        · exact hok
        · exact (alike_setPixel s.strip _ _).ok hok
        · exact hok
        · split
          · exact hok
          · exact hok
        · exact hok
  | tick => exact (alike_tick hok).ok hok

/-- Every state that is reached has its array. -/
theorem run_ok (type : StripType) (es : List Step) :
    (es.foldl LedTask.step (LedTask.powerUp type)).strip.Ok := by
  have hrun : ∀ s : LedTask, s.strip.Ok → (es.foldl LedTask.step s).strip.Ok := by
    induction es with
    | nil => exact fun s hok => hok
    | cons e es ih => exact fun s hok => ih _ (step_ok hok e)
  exact hrun _ ⟨List.length_replicate, Nat.zero_le _⟩

/-! What a frame shows. -/

/-- The bytes of one LED in a frame. -/
def ledGroup (type : StripType) (brightness : UInt8) (c : RgbwColor) : List UInt8 :=
  match type with
  | .sk6812 => ledBytes brightness c
  | .apa102 => apa102Led brightness c

/-- The bytes before the first LED. -/
def frameStart : StripType → Nat
  | .sk6812 => 0
  | .apa102 => 4

/-- At the place of LED `idx` the frame has the colour, scaled by the brightness. -/
def Shows (type : StripType) (brightness : UInt8) (idx : UInt16) (c : Sk6812Color)
    (frame : List Bool) : Prop :=
  ((wireBytes frame).drop (frameStart type + 4 * idx.toNat)).take 4 =
    ledGroup type brightness (toRgbw c)

/-- The frame that `led_strip_refresh` sends. -/
def LedStrip.frame (type : StripType) (s : LedStrip) : List Bool :=
  match type with
  | .sk6812 => (s.pixels.take s.count).flatMap fun c => (ledBytes s.brightness c).flatMap sendByte
  | .apa102 =>
      (List.replicate 4 0x00 ++ (s.pixels.take s.count).flatMap (apa102Led s.brightness) ++
        List.replicate (s.count / 2 + 2) 0xFF).flatMap sendByte

theorem refresh_sends (type : StripType) {s : LedStrip} (hinited : s.inited = true) :
    (ledStripRefreshAs type s).2 = { s with sent := s.sent ++ [s.frame type] } := by
  cases type with
  | sk6812 =>
      simp only [ledStripRefreshAs, if_pos hinited]
      rfl
  | apa102 =>
      simp only [ledStripRefreshAs, if_pos hinited]
      rfl

@[simp] theorem length_ledGroup (type : StripType) (brightness : UInt8) (c : RgbwColor) :
    (ledGroup type brightness c).length = 4 := by
  cases type with
  | sk6812 => rfl
  | apa102 => rfl

/-- A list of pieces of one length, cut at a piece. -/
theorem slice_flatMap {α β : Type*} {f : α → List β} {k : Nat} (hf : ∀ x, (f x).length = k)
    {xs : List α} {i : Nat} {x : α} (hx : xs[i]? = some x) (back : List β) :
    ((xs.flatMap f ++ back).drop (k * i)).take k = f x := by
  induction xs generalizing i with
  | nil => cases hx
  | cons y xs ih =>
      cases i with
      | zero =>
          obtain rfl : y = x := Option.some.inj hx
          simp [← hf y]
      | succ i =>
          rw [List.flatMap_cons, List.append_assoc, Nat.mul_succ, Nat.add_comm, ← List.drop_drop,
            List.drop_left' (hf y)]
          exact ih hx

/-- The bytes of LED `idx` in a frame are those of its pixel. -/
theorem frame_slice (type : StripType) {s : LedStrip} {i : Nat} {c : RgbwColor}
    (hi : i < s.count) (hc : s.pixels[i]? = some c) :
    ((wireBytes (s.frame type)).drop (frameStart type + 4 * i)).take 4 =
      ledGroup type s.brightness c := by
  have hpixel : (s.pixels.take s.count)[i]? = some c := by
    rw [List.getElem?_take_of_lt hi, hc]
  cases type with
  | sk6812 =>
      have hbytes : wireBytes (s.frame .sk6812) =
          (s.pixels.take s.count).flatMap (ledGroup .sk6812 s.brightness) ++ [] := by
        rw [LedStrip.frame, ← List.flatMap_assoc, wireBytes, List.append_nil]
        exact bytesOf_msbFirst _
      rw [hbytes, frameStart, Nat.zero_add]
      exact slice_flatMap (length_ledGroup .sk6812 s.brightness) hpixel []
  | apa102 =>
      have hbytes : wireBytes (s.frame .apa102) = List.replicate 4 0x00 ++
          ((s.pixels.take s.count).flatMap (ledGroup .apa102 s.brightness) ++
            List.replicate (s.count / 2 + 2) 0xFF) := by
        rw [LedStrip.frame, wireBytes, ← List.append_assoc]
        exact bytesOf_msbFirst _
      rw [hbytes, frameStart, ← List.drop_drop, List.drop_left' List.length_replicate]
      exact slice_flatMap (length_ledGroup .apa102 s.brightness) hpixel _

/-! The static patterns. -/

/-- The colour that a tick of a static pattern gives to every LED. -/
def LedTask.base (s : LedTask) : RgbwColor :=
  match s.pattern with
  | .off => COLOR_OFF
  | _ => toRgbw s.color

def LedTask.Static (s : LedTask) : Prop := s.pattern = .off ∨ s.pattern = .solid

/-- A tick of a static pattern fills the strip and sends it. -/
theorem tickFn_static {s : LedTask} (hok : s.strip.Ok) (hstatic : s.Static)
    (hinited : s.strip.inited = true) (hcount : s.strip.count ≠ 0) :
    let filled := s.strip.filled s.base
    (tickFn s).strip = { filled with sent := s.strip.sent ++ [filled.frame s.type] } ∧
      (tickFn s).type = s.type ∧ (tickFn s).pattern = s.pattern ∧
      (tickFn s).color = s.color := by
  have hne := ledStripCount_ne_zero hok hinited hcount
  rcases hstatic with hpattern | hpattern
  · have hclear : (ledStripClearAs s.type s.strip).2 =
        (ledStripRefreshAs s.type (s.strip.filled COLOR_OFF)).2 := by
      rw [ledStripClearAs, if_pos hinited]
      rfl
    rw [tickFn, if_neg hne, LedTask.base, hpattern]
    dsimp only
    rw [hclear, refresh_sends s.type (s := s.strip.filled COLOR_OFF) hinited]
    exact ⟨rfl, rfl, rfl, rfl⟩
  · have hfill : (ledStripFill (toRgbw s.color) s.strip).2 =
        s.strip.filled (toRgbw s.color) := by
      rw [ledStripFill, if_pos hinited]
      rfl
    rw [tickFn, if_neg hne, LedTask.base, hpattern]
    dsimp only
    rw [hfill, LedTask.send,
      refresh_sends s.type (s := s.strip.filled (toRgbw s.color)) hinited]
    exact ⟨rfl, rfl, hpattern, rfl⟩

/-- What the ticks of a static pattern leave as it is. -/
structure LedTask.Steady (s s' : LedTask) : Prop where
  type : s'.type = s.type
  pattern : s'.pattern = s.pattern
  color : s'.color = s.color
  strip : s.strip.Alike s'.strip

theorem LedTask.Steady.base {s s' : LedTask} (h : s.Steady s') : s'.base = s.base := by
  rw [LedTask.base, LedTask.base, h.pattern, h.color]

theorem ticks_steady {s : LedTask} (hok : s.strip.Ok) (hstatic : s.Static)
    (hinited : s.strip.inited = true) (hcount : s.strip.count ≠ 0) (n : Nat) :
    s.Steady (ticks n s) := by
  induction n with
  | zero => exact ⟨rfl, rfl, rfl, .refl s.strip⟩
  | succ n ih =>
      have hstatic' : (ticks n s).Static := by
        rw [LedTask.Static, ih.pattern]
        exact hstatic
      obtain ⟨-, htype, hpattern, hcolor⟩ := tickFn_static (ih.strip.ok hok) hstatic'
        (ih.strip.inited.trans hinited) (by rw [ih.strip.count]; exact hcount)
      have halike := alike_tick (ih.strip.ok hok)
      rw [ticks, Function.iterate_succ_apply']
      exact ⟨htype.trans ih.type, hpattern.trans ih.pattern, hcolor.trans ih.color,
        ih.strip.trans halike⟩

/-- Each tick of a static pattern sends one more frame, and in it every LED has
the colour of the pattern. -/
theorem ticks_frame {s : LedTask} (hok : s.strip.Ok) (hstatic : s.Static)
    (hinited : s.strip.inited = true) (idx : UInt16) (hidx : idx.toNat < s.strip.count) (n : Nat) :
    ∃ frame, (ticks (n + 1) s).strip.sent = (ticks n s).strip.sent ++ [frame] ∧
      ((wireBytes frame).drop (frameStart s.type + 4 * idx.toNat)).take 4 =
        ledGroup s.type s.strip.brightness s.base := by
  have hcount : s.strip.count ≠ 0 := by omega
  have hsteady := ticks_steady hok hstatic hinited hcount n
  have hstatic' : (ticks n s).Static := by
    rw [LedTask.Static, hsteady.pattern]
    exact hstatic
  obtain ⟨hstrip, -⟩ := tickFn_static (hsteady.strip.ok hok) hstatic'
    (hsteady.strip.inited.trans hinited)
    (by rw [hsteady.strip.count]; exact hcount)
  refine ⟨((ticks n s).strip.filled (ticks n s).base).frame (ticks n s).type, ?_, ?_⟩
  · rw [ticks, Function.iterate_succ_apply']
    exact congrArg LedStrip.sent hstrip
  · have hin : idx.toNat < (ticks n s).strip.count := by
      rw [hsteady.strip.count]
      exact hidx
    have hpixel : ((ticks n s).strip.filled (ticks n s).base).pixels[idx.toNat]? =
        some (ticks n s).base := by
      rw [LedStrip.filled, List.getElem?_append_left (by simpa using hin),
        List.getElem?_replicate_of_lt hin]
    have hslice := frame_slice (ticks n s).type (s := (ticks n s).strip.filled (ticks n s).base)
      hin hpixel
    rw [hsteady.type] at hslice ⊢
    rw [hsteady.base] at hslice ⊢
    rw [hslice]
    exact congrArg (fun br => ledGroup s.type br s.base) hsteady.strip.brightness

/-- Two colours that an LED of the strip shows alike at this brightness; an APA102
LED has no white channel. -/
def SameLight (type : StripType) (brightness : UInt8) (x y : RgbwColor) : Prop :=
  applyBrightness brightness x.r = applyBrightness brightness y.r ∧
  applyBrightness brightness x.g = applyBrightness brightness y.g ∧
  applyBrightness brightness x.b = applyBrightness brightness y.b ∧
  (type = .sk6812 → applyBrightness brightness x.w = applyBrightness brightness y.w)

theorem sameLight_iff (type : StripType) (brightness : UInt8) (x y : RgbwColor) :
    SameLight type brightness x y ↔ ledGroup type brightness x = ledGroup type brightness y := by
  cases type with
  | sk6812 =>
      simp only [SameLight, ledGroup, ledBytes, List.cons.injEq, and_true, forall_const]
      constructor
      · rintro ⟨hr, hg, hb, hw⟩
        exact ⟨hg, hr, hb, hw⟩
      · rintro ⟨hg, hr, hb, hw⟩
        exact ⟨hr, hg, hb, hw⟩
  | apa102 =>
      simp only [SameLight, ledGroup, apa102Led, List.cons.injEq, and_true, true_and,
        reduceCtorEq, false_implies]
      constructor
      · rintro ⟨hr, hg, hb⟩
        exact ⟨hb, hg, hr⟩
      · rintro ⟨hb, hg, hr⟩
        exact ⟨hr, hg, hb⟩

/-- What a successful `led_task_set_pixel` does. -/
theorem ledTaskSetPixel_ok {s : LedTask} {idx : UInt16} {c : Sk6812Color}
    (hrc : (ledTaskSetPixel idx c s).1 = 0) :
    s.strip.inited = true ∧ idx.toNat < s.strip.count ∧
      s.Steady (ledTaskSetPixel idx c s).2 := by
  have halike := alike_setPixel s.strip idx.toNat (toRgbw c)
  simp only [ledTaskSetPixel, ledStripSetPixel] at hrc halike ⊢
  by_cases hout : (!s.strip.inited || decide (idx.toNat ≥ s.strip.count)) = true
  · rw [if_pos hout] at hrc
    cases hrc
  · rw [if_neg hout] at halike ⊢
    simp only [Bool.or_eq_true, Bool.not_eq_true', decide_eq_true_eq, not_or, Bool.not_eq_false,
      not_le, ge_iff_le] at hout
    exact ⟨hout.1, hout.2, rfl, rfl, rfl, halike⟩

/-- A pixel override in a static pattern: the frame of the `n`-th tick after it
shows its colour exactly if the LED shows the colour of the pattern like it. -/
theorem override_shown_iff (s : LedTask) (idx : UInt16) (c : Sk6812Color) (n : Nat)
    (hok : s.strip.Ok) (hstatic : s.Static) (hrc : (ledTaskSetPixel idx c s).1 = 0)
    (hn : 1 ≤ n) :
    let s' := (ledTaskSetPixel idx c s).2
    ∃ frame, (ticks n s').strip.sent = (ticks (n - 1) s').strip.sent ++ [frame] ∧
      (Shows s.type s.strip.brightness idx c frame ↔
        SameLight s.type s.strip.brightness s.base (toRgbw c)) := by
  obtain ⟨hinited, hidx, hsteady⟩ := ledTaskSetPixel_ok hrc
  have hstatic' : (ledTaskSetPixel idx c s).2.Static := by
    rw [LedTask.Static, hsteady.pattern]
    exact hstatic
  obtain ⟨frame, hsent, hslice⟩ := ticks_frame (hsteady.strip.ok hok) hstatic'
    (hsteady.strip.inited.trans hinited) idx (by rw [hsteady.strip.count]; exact hidx) (n - 1)
  rw [Nat.sub_add_cancel hn] at hsent
  refine ⟨frame, hsent, ?_⟩
  rw [hsteady.type, hsteady.strip.brightness, hsteady.base] at hslice
  rw [Shows, hslice, sameLight_iff]

/-- A strip that has been started and set to solid red. -/
def redStrip : LedTask :=
  [Step.start 0, .command [0x06, 1, 255, 0, 0, 0]].foldl LedTask.step (.powerUp .sk6812)

/-- An override in the colour of the pattern stays visible. -/
theorem override_shown_iff_red :
    ∃ frame, (ticks 5 (ledTaskSetPixel 3 ⟨255, 0, 0, 0⟩ redStrip).2).strip.sent =
        (ticks 4 (ledTaskSetPixel 3 ⟨255, 0, 0, 0⟩ redStrip).2).strip.sent ++ [frame] ∧
      (Shows .sk6812 255 3 ⟨255, 0, 0, 0⟩ frame ↔
        SameLight .sk6812 255 ⟨255, 0, 0, 0⟩ ⟨255, 0, 0, 0⟩) :=
  override_shown_iff redStrip 3 ⟨255, 0, 0, 0⟩ 5 (run_ok .sk6812 _) (Or.inr rfl) rfl (by decide)

/-- LED 3 set to green on the red strip: the first tick paints it red again. -/
theorem override_lost :
    ¬∀ (s : LedTask) (idx : UInt16) (c : Sk6812Color) (n : Nat), s.strip.Ok → s.Static →
        (ledTaskSetPixel idx c s).1 = 0 → 1 ≤ n →
        ∀ frame, (ticks n (ledTaskSetPixel idx c s).2).strip.sent =
            (ticks (n - 1) (ledTaskSetPixel idx c s).2).strip.sent ++ [frame] →
          Shows s.type s.strip.brightness idx c frame := by
  intro hshown
  have hset : (ledTaskSetPixel 3 ⟨0, 255, 0, 0⟩ redStrip).2.strip.Ok :=
    step_ok (s := redStrip) (run_ok .sk6812 _) (.command [0x05, 3, 0, 0, 255, 0, 0])
  obtain ⟨frame, hsent, hslice⟩ := ticks_frame hset (Or.inr rfl) rfl 3 (by decide) 0
  have hgreen := hshown redStrip 3 ⟨0, 255, 0, 0⟩ 1 (run_ok .sk6812 _) (Or.inr rfl) rfl
    (by decide) frame hsent
  have hsame : ledGroup .sk6812 255 (toRgbw ⟨0, 255, 0, 0⟩) =
      ledGroup .sk6812 255 (toRgbw ⟨255, 0, 0, 0⟩) := hgreen.symm.trans hslice
  exact absurd hsame (by decide)

end Rw612.Led.Zephyr
