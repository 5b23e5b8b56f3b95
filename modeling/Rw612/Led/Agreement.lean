import Rw612.Led.Spi

/-!
What the two backends of `sk6812.h` put on the wire for the same calls. Both
keep, for each LED, a function of the colour and the percentage it was last
given; they differ in that function and in how brightness is applied.
-/

namespace Rw612.Led

open Lib

inductive Call where
  | setPixel (idx : UInt16) (c : Sk6812Color)
  | fill (c : Sk6812Color)
  | setPixelScaled (idx : UInt16) (c : Sk6812Color) (pct : UInt8)
  | fillScaled (c : Sk6812Color) (pct : UInt8)
  | setBrightness (scale : UInt8)
  | refresh (rc : Int)
  | clear (rc : Int)
  deriving DecidableEq

def Zephyr.call (s : Zephyr.LedStrip) : Call → Zephyr.LedStrip
  | .setPixel idx c => (sk6812SetPixel idx.toNat c s).2
  | .fill c => (sk6812Fill c s).2
  | .setPixelScaled idx c pct => (sk6812SetPixelScaled idx.toNat c pct s).2
  | .fillScaled c pct => (sk6812FillScaled c pct s).2
  | .setBrightness scale => sk6812SetBrightness scale s
  | .refresh _ => (sk6812Refresh s).2
  | .clear _ => (sk6812Clear s).2

def Spi.call (s : Spi.Sk6812) : Call → Spi.Sk6812
  | .setPixel idx c => (sk6812SetPixel idx.toNat c s).2
  | .fill c => (sk6812Fill c s).2
  | .setPixelScaled idx c pct => (sk6812SetPixelScaled idx.toNat c pct s).2
  | .fillScaled c pct => (sk6812FillScaled c pct s).2
  | .setBrightness scale => sk6812SetBrightness scale s
  | .refresh rc => (sk6812Refresh rc s).2
  | .clear rc => (sk6812Clear rc s).2

/-- The strip after a successful `sk6812_init`. -/
def Zephyr.started : Zephyr.LedStrip := (ledTaskStart 0 LedStrip.powerUp).2

def Spi.started (rc : Int) : Spi.Sk6812 := (sk6812Init 0 rc Sk6812.powerUp).2

/-- The bytes on the wire, frame by frame, that of `sk6812_init` first. -/
def Zephyr.wire (calls : List Call) : List (List UInt8) :=
  (calls.foldl Zephyr.call Zephyr.started).sent.map Zephyr.wireBytes

def Spi.wire (rc : Int) (calls : List Call) : List (List UInt8) :=
  (calls.foldl Spi.call (Spi.started rc)).sent.map Spi.wireBytes

/-- What an LED was last asked to show; the plain calls ask for 100 percent. -/
structure Asked where
  color : Sk6812Color
  pct : UInt8
  deriving DecidableEq

/-- What the calls have asked for so far. -/
structure Frame where
  leds : List Asked
  brightness : UInt8
  deriving DecidableEq

def Frame.off (brightness : UInt8) : Frame where
  leds := List.replicate APP_LED_COUNT ⟨SK6812_OFF, 100⟩
  brightness := brightness

def Frame.setPixel (f : Frame) (idx : Nat) (a : Asked) : Frame :=
  if idx ≥ APP_LED_COUNT then f else { f with leds := f.leds.set idx a }

def Frame.fill (f : Frame) (a : Asked) : Frame :=
  { f with leds := List.replicate APP_LED_COUNT a }

def Frame.call (f : Frame) : Call → Frame
  | .setPixel idx c => f.setPixel idx.toNat ⟨c, 100⟩
  | .fill c => f.fill ⟨c, 100⟩
  | .setPixelScaled idx c pct => f.setPixel idx.toNat ⟨c, pct⟩
  | .fillScaled c pct => f.fill ⟨c, pct⟩
  | .setBrightness scale => { f with brightness := scale }
  | .refresh _ => f
  | .clear _ => Frame.off f.brightness

def Call.sends : Call → Bool
  | .refresh _ | .clear _ => true
  | _ => false

/-- The frames sent along the calls, when `bytes` is what a frame shows. -/
def Frame.shown (bytes : Frame → List UInt8) (f : Frame) : List Call → List (List UInt8)
  | [] => []
  | c :: calls =>
      (if c.sends then [bytes (f.call c)] else []) ++ (f.call c).shown bytes calls

/-- The pixel each backend stores for what was asked. -/
def Asked.stripPixel (a : Asked) : Zephyr.RgbwColor := Zephyr.scaledColor a.color a.pct

def Asked.spiPixel (a : Asked) : Sk6812Color := Spi.scalePct a.color a.pct

def Frame.stripBytes (f : Frame) : List UInt8 :=
  f.leds.flatMap fun a => Zephyr.ledBytes f.brightness a.stripPixel

def Frame.spiBytes (f : Frame) : List UInt8 :=
  f.leds.flatMap fun a => Spi.ledBytes f.brightness a.spiPixel

section Refinement

@[simp] theorem stripPixel_full (c : Sk6812Color) :
    (Asked.mk c 100).stripPixel = Zephyr.toRgbw c := by
  simp [Asked.stripPixel, Zephyr.scaledColor, Zephyr.scaledChannel, Zephyr.toRgbw]

@[simp] theorem spiPixel_full (c : Sk6812Color) : (Asked.mk c 100).spiPixel = c := by
  simp [Asked.spiPixel, Spi.scalePct, Spi.scalePctChannel]

/-- The strip holds what was asked. -/
structure Zephyr.LedStrip.Shows (s : Zephyr.LedStrip) (f : Frame) : Prop where
  inited : s.inited = true
  count : s.count = APP_LED_COUNT
  pixels : s.pixels.take APP_LED_COUNT = f.leds.map Asked.stripPixel
  brightness : s.brightness = f.brightness

structure Spi.Sk6812.Shows (s : Spi.Sk6812) (f : Frame) : Prop where
  initialised : s.initialised = true
  pixels : s.pixels = f.leds.map Asked.spiPixel
  brightness : s.brightness = f.brightness

namespace Zephyr

variable {s : LedStrip} {f : Frame}

theorem LedStrip.Shows.setPixel (h : s.Shows f) (idx : Nat) (a : Asked) :
    (ledStripSetPixel idx a.stripPixel s).2.Shows (f.setPixel idx a) ∧
      (ledStripSetPixel idx a.stripPixel s).2.sent = s.sent := by
  by_cases hidx : idx ≥ APP_LED_COUNT
  · rw [ledStripSetPixel, if_pos (by simp [h.inited, h.count, hidx]), Frame.setPixel,
      if_pos hidx]
    exact ⟨h, rfl⟩
  · rw [ledStripSetPixel, if_neg (by simp [h.inited, h.count, hidx]), Frame.setPixel,
      if_neg hidx]
    refine ⟨⟨h.inited, h.count, ?_, h.brightness⟩, rfl⟩
    rw [List.take_set, h.pixels, List.map_set]

theorem LedStrip.Shows.fill (h : s.Shows f) (a : Asked) :
    (ledStripFill a.stripPixel s).2.Shows (f.fill a) ∧
      (ledStripFill a.stripPixel s).2.sent = s.sent := by
  rw [ledStripFill, if_pos h.inited, h.count]
  refine ⟨⟨h.inited, rfl, ?_, h.brightness⟩, rfl⟩
  rw [List.take_left' List.length_replicate, Frame.fill, List.map_replicate]

theorem LedStrip.Shows.refresh (h : s.Shows f) :
    (ledStripRefresh s).2.Shows f ∧
      (ledStripRefresh s).2.sent.map wireBytes = s.sent.map wireBytes ++ [f.stripBytes] := by
  rw [ledStripRefresh, if_pos h.inited, stripRefresh]
  constructor
  · exact ⟨h.inited, h.count, h.pixels, h.brightness⟩
  · rw [h.count, h.pixels, h.brightness, List.map_append, List.map_singleton, wireBytes,
      List.flatMap_map, Frame.stripBytes, ← bytesOf_msbFirst (f.leds.flatMap _),
      List.flatMap_assoc]
    rfl

theorem LedStrip.Shows.clear (h : s.Shows f) :
    (ledStripClear s).2.Shows (Frame.off f.brightness) ∧
      (ledStripClear s).2.sent.map wireBytes =
        s.sent.map wireBytes ++ [(Frame.off f.brightness).stripBytes] := by
  have hoff := (h.fill ⟨SK6812_OFF, 100⟩).1
  rw [ledStripFill, if_pos h.inited] at hoff
  rw [ledStripClear, if_pos h.inited]
  exact hoff.refresh

theorem LedStrip.Shows.call (h : s.Shows f) (c : Call) :
    (Zephyr.call s c).Shows (f.call c) ∧
      (Zephyr.call s c).sent.map wireBytes =
        s.sent.map wireBytes ++ (if c.sends then [(f.call c).stripBytes] else []) := by
  have silent {s' : LedStrip} {f' : Frame} (hs' : s'.Shows f' ∧ s'.sent = s.sent) :
      s'.Shows f' ∧ s'.sent.map wireBytes = s.sent.map wireBytes ++ [] := by
    rw [List.append_nil, hs'.2]
    exact ⟨hs'.1, rfl⟩
  cases c with
  | setPixel idx c =>
      apply silent
      have hset := h.setPixel idx.toNat ⟨c, 100⟩
      rw [stripPixel_full] at hset
      exact hset
  | fill c =>
      apply silent
      have hfill := h.fill ⟨c, 100⟩
      rw [stripPixel_full] at hfill
      exact hfill
  | setPixelScaled idx c pct =>
      apply silent
      exact h.setPixel idx.toNat ⟨c, pct⟩
  | fillScaled c pct =>
      apply silent
      exact h.fill ⟨c, pct⟩
  | setBrightness scale =>
      apply silent
      exact ⟨⟨h.inited, h.count, h.pixels, rfl⟩, rfl⟩
  | refresh _ => exact h.refresh
  | clear _ => exact h.clear

theorem started_shows : started.Shows (Frame.off 0xFF) where
  inited := rfl
  count := rfl
  pixels := rfl
  brightness := rfl

/-- The strip backend refines the frame under its own scaling. -/
theorem wire_eq (calls : List Call) :
    wire calls =
      (Frame.off 0xFF).stripBytes :: (Frame.off 0xFF).shown Frame.stripBytes calls := by
  have run {s : LedStrip} {f : Frame} (h : s.Shows f) (calls : List Call) :
      (calls.foldl Zephyr.call s).sent.map wireBytes =
        s.sent.map wireBytes ++ f.shown Frame.stripBytes calls := by
    induction calls generalizing s f with
    | nil => rw [Frame.shown, List.append_nil, List.foldl_nil]
    | cons c calls ih =>
        obtain ⟨hnext, hsent⟩ := h.call c
        rw [List.foldl_cons, ih hnext, hsent, List.append_assoc, Frame.shown]
  have hfirst : started.sent.map wireBytes = [(Frame.off 0xFF).stripBytes] := by
    have hzero : (⟨APP_LED_COUNT, List.replicate LED_STRIP_MAX_COUNT COLOR_OFF, 0xFF, true,
        []⟩ : LedStrip).Shows (Frame.off 0xFF) := ⟨rfl, rfl, rfl, rfl⟩
    exact hzero.clear.2
  rw [wire, run started_shows, hfirst, List.singleton_append]

end Zephyr

namespace Spi

variable {s : Sk6812} {f : Frame}

theorem Sk6812.Shows.setPixel (h : s.Shows f) (idx : Nat) (a : Asked) :
    (sk6812SetPixel idx a.spiPixel s).2.Shows (f.setPixel idx a) ∧
      (sk6812SetPixel idx a.spiPixel s).2.sent = s.sent := by
  by_cases hidx : idx ≥ APP_LED_COUNT
  · rw [sk6812SetPixel, if_pos hidx, Frame.setPixel, if_pos hidx]
    exact ⟨h, rfl⟩
  · rw [sk6812SetPixel, if_neg hidx, Frame.setPixel, if_neg hidx]
    refine ⟨⟨h.initialised, ?_, h.brightness⟩, rfl⟩
    rw [h.pixels, List.map_set]

theorem Sk6812.Shows.fill (h : s.Shows f) (a : Asked) :
    (sk6812Fill a.spiPixel s).2.Shows (f.fill a) ∧
      (sk6812Fill a.spiPixel s).2.sent = s.sent := by
  refine ⟨⟨h.initialised, ?_, h.brightness⟩, rfl⟩
  rw [Frame.fill, List.map_replicate]
  rfl

theorem Sk6812.Shows.refresh (h : s.Shows f) (rc : Int) :
    (sk6812Refresh rc s).2.Shows f ∧
      (sk6812Refresh rc s).2.sent.map wireBytes = s.sent.map wireBytes ++ [f.spiBytes] := by
  rw [sk6812Refresh, if_pos h.initialised]
  constructor
  · exact ⟨h.initialised, h.pixels, h.brightness⟩
  · rw [h.pixels, h.brightness, List.map_append, List.map_singleton, List.flatMap_map,
      ← List.flatMap_assoc, wireBytes_encode, Frame.spiBytes]

theorem Sk6812.Shows.call (h : s.Shows f) (c : Call) :
    (Spi.call s c).Shows (f.call c) ∧
      (Spi.call s c).sent.map wireBytes =
        s.sent.map wireBytes ++ (if c.sends then [(f.call c).spiBytes] else []) := by
  have silent {s' : Sk6812} {f' : Frame} (hs' : s'.Shows f' ∧ s'.sent = s.sent) :
      s'.Shows f' ∧ s'.sent.map wireBytes = s.sent.map wireBytes ++ [] := by
    rw [List.append_nil, hs'.2]
    exact ⟨hs'.1, rfl⟩
  cases c with
  | setPixel idx c =>
      apply silent
      have hset := h.setPixel idx.toNat ⟨c, 100⟩
      rw [spiPixel_full] at hset
      exact hset
  | fill c =>
      apply silent
      have hfill := h.fill ⟨c, 100⟩
      rw [spiPixel_full] at hfill
      exact hfill
  | setPixelScaled idx c pct =>
      apply silent
      exact h.setPixel idx.toNat ⟨c, pct⟩
  | fillScaled c pct =>
      apply silent
      exact h.fill ⟨c, pct⟩
  | setBrightness scale =>
      apply silent
      exact ⟨⟨h.initialised, h.pixels, rfl⟩, rfl⟩
  | refresh rc => exact h.refresh rc
  | clear rc =>
      have hoff := (h.fill ⟨SK6812_OFF, 100⟩).1
      rw [spiPixel_full] at hoff
      exact hoff.refresh rc

/-- The SPI backend refines the frame under its own scaling. -/
theorem wire_eq (rc : Int) (calls : List Call) :
    wire rc calls =
      (Frame.off 0xFF).spiBytes :: (Frame.off 0xFF).shown Frame.spiBytes calls := by
  have run {s : Sk6812} {f : Frame} (h : s.Shows f) (calls : List Call) :
      (calls.foldl Spi.call s).sent.map wireBytes =
        s.sent.map wireBytes ++ f.shown Frame.spiBytes calls := by
    induction calls generalizing s f with
    | nil => rw [Frame.shown, List.append_nil, List.foldl_nil]
    | cons c calls ih =>
        obtain ⟨hnext, hsent⟩ := h.call c
        rw [List.foldl_cons, ih hnext, hsent, List.append_assoc, Frame.shown]
  have hzero : (⟨List.replicate APP_LED_COUNT SK6812_OFF, 0xFF, true, []⟩ :
      Sk6812).Shows (Frame.off 0xFF) := ⟨rfl, rfl, rfl⟩
  obtain ⟨hstarted, hfirst⟩ := hzero.refresh rc
  rw [wire, started, sk6812Init]
  exact (run hstarted calls).trans (congrArg (· ++ _) hfirst)

end Spi

end Refinement

section Channel

/-- A channel of at most 100 percent comes out alike: it is dark, or brightness
is below its maximum and the product over 256 has quotient and remainder that
add up to less than 127. -/
def DimmedAlike (v brightness : Nat) : Prop :=
  v = 0 ∨ (brightness ≠ 255 ∧ v * brightness / 256 + v * brightness % 256 < 127)

/-- A channel `v` of more than 100 percent: the strip backend does not clamp and
keeps the low byte `kept` of the product. -/
def OverdrivenAlike (v kept brightness : Nat) : Prop :=
  if brightness = 255 then v = 0 ∨ kept = v + 1
  else 255 * (kept * brightness / 256) ≤ v * brightness + 128 ∧
    v * brightness + 128 < 255 * (kept * brightness / 256) + 255

/-- The condition on one channel of the colour an LED was asked to show. -/
def ChannelAlike (v pct brightness : UInt8) : Prop :=
  if pct.toNat ≤ 100 then DimmedAlike (v.toNat * pct.toNat / 100) brightness.toNat
  else OverdrivenAlike v.toNat (v.toNat * pct.toNat / 100 % 256) brightness.toNat

/-- The two ways to apply brightness, on numbers. -/
theorem scale_eq_iff (kept v brightness : Nat) (hkept : kept < 256) :
    kept * brightness / 256 = (if brightness = 255 then v
        else (v * brightness + 128) / 255) ↔
      if brightness = 255 then (kept = 0 ∧ v = 0) ∨ kept = v + 1
      else 255 * (kept * brightness / 256) ≤ v * brightness + 128 ∧
        v * brightness + 128 < 255 * (kept * brightness / 256) + 255 := by
  by_cases hfull : brightness = 255
  · subst hfull
    simp only [if_true]
    omega
  · simp only [hfull, if_false]
    generalize v * brightness = x
    generalize kept * brightness / 256 = y
    omega

theorem dimmedAlike_iff (v brightness : Nat) (hv : v < 256) :
    (if brightness = 255 then (v = 0 ∧ v = 0) ∨ v = v + 1
      else 255 * (v * brightness / 256) ≤ v * brightness + 128 ∧
        v * brightness + 128 < 255 * (v * brightness / 256) + 255) ↔
      DimmedAlike v brightness := by
  by_cases hfull : brightness = 255
  · simp [DimmedAlike, hfull]
  · simp only [DimmedAlike, hfull, if_false, ne_eq, not_false_eq_true, true_and]
    rcases Nat.eq_zero_or_pos v with rfl | hpos
    · simp
    · have hv0 : v ≠ 0 := Nat.pos_iff_ne_zero.mp hpos
      simp only [hv0, false_or]
      generalize v * brightness = x
      omega

theorem overdrivenAlike_iff (v kept brightness : Nat) (hzero : v = 0 → kept = 0) :
    (if brightness = 255 then (kept = 0 ∧ v = 0) ∨ kept = v + 1
      else 255 * (kept * brightness / 256) ≤ v * brightness + 128 ∧
        v * brightness + 128 < 255 * (kept * brightness / 256) + 255) ↔
      OverdrivenAlike v kept brightness := by
  by_cases hfull : brightness = 255
  · simp only [OverdrivenAlike, hfull, if_true]
    constructor
    · rintro (⟨_, hv⟩ | hkept)
      · exact .inl hv
      · exact .inr hkept
    · rintro (hv | hkept)
      · exact .inl ⟨hzero hv, hv⟩
      · exact .inr hkept
  · simp only [OverdrivenAlike, hfull, if_false]

theorem toNat_applyBrightness (brightness ch : UInt8) :
    (Zephyr.applyBrightness brightness ch).toNat = ch.toNat * brightness.toNat / 256 := by
  have hprod : ch.toNat * brightness.toNat ≤ 255 * 255 :=
    Nat.mul_le_mul (Nat.le_of_lt_succ ch.toNat_lt) (Nat.le_of_lt_succ brightness.toNat_lt)
  rw [Zephyr.applyBrightness, UInt8.toNat_ofNat', Nat.shiftRight_eq_div_pow]
  omega

theorem toNat_scale8 (v s : UInt8) :
    (Spi.scale8 v s).toNat =
      if s.toNat = 255 then v.toNat else (v.toNat * s.toNat + 128) / 255 := by
  have hprod : v.toNat * s.toNat ≤ 255 * 255 :=
    Nat.mul_le_mul (Nat.le_of_lt_succ v.toNat_lt) (Nat.le_of_lt_succ s.toNat_lt)
  have hfull : s = 0xFF ↔ s.toNat = 255 := by
    rw [← UInt8.toNat_inj]
    rfl
  rw [Spi.scale8]
  by_cases h : s.toNat = 255
  · rw [if_pos (hfull.mpr h), if_pos h]
  · rw [if_neg (fun hs => h (hfull.mp hs)), if_neg h, UInt8.toNat_ofNat']
    omega

/-- One channel on the wire, in both backends. -/
theorem channel_eq_iff (v pct brightness : UInt8) :
    Zephyr.applyBrightness brightness (Zephyr.scaledChannel v pct) =
        Spi.scale8 (Spi.scalePctChannel v (if pct > 100 then 100 else pct)) brightness ↔
      ChannelAlike v pct brightness := by
  have hv := v.toNat_lt
  have hgt : pct > 100 ↔ ¬ pct.toNat ≤ 100 := by
    rw [gt_iff_lt, UInt8.lt_iff_toNat_lt, Nat.not_le]
    rfl
  rw [← UInt8.toNat_inj, toNat_applyBrightness, toNat_scale8, Zephyr.scaledChannel,
    Spi.scalePctChannel, UInt8.toNat_ofNat', UInt8.toNat_ofNat']
  by_cases hpct : pct.toNat ≤ 100
  · have hkept : v.toNat * pct.toNat / 100 < 256 := by
      have := Nat.mul_le_mul_left v.toNat hpct
      omega
    rw [if_neg (fun h => hgt.mp h hpct), Nat.mod_eq_of_lt hkept, ChannelAlike, if_pos hpct,
      scale_eq_iff _ _ _ hkept, dimmedAlike_iff _ _ hkept]
  · have hclamped : v.toNat * (100 : UInt8).toNat / 100 % 2 ^ 8 = v.toNat := by
      rw [show (100 : UInt8).toNat = 100 from rfl]
      omega
    rw [if_pos (hgt.mpr hpct), hclamped, ChannelAlike, if_neg hpct,
      scale_eq_iff _ _ _ (Nat.mod_lt _ (by decide)), overdrivenAlike_iff]
    intro hzero
    rw [hzero, Nat.zero_mul]

end Channel

/-- The condition on what one LED was asked to show. -/
def Asked.Alike (brightness : UInt8) (a : Asked) : Prop :=
  ChannelAlike a.color.g a.pct brightness ∧ ChannelAlike a.color.r a.pct brightness ∧
    ChannelAlike a.color.b a.pct brightness ∧ ChannelAlike a.color.w a.pct brightness

def Frame.Alike (f : Frame) : Prop := ∀ a ∈ f.leds, a.Alike f.brightness

theorem Asked.ledBytes_eq_iff (brightness : UInt8) (a : Asked) :
    Zephyr.ledBytes brightness a.stripPixel = Spi.ledBytes brightness a.spiPixel ↔
      a.Alike brightness := by
  simp only [Zephyr.ledBytes, Spi.ledBytes, Asked.stripPixel, Asked.spiPixel,
    Zephyr.scaledColor, Spi.scalePct, List.cons.injEq, and_true, channel_eq_iff, Asked.Alike]

theorem Frame.bytes_eq_iff (f : Frame) : f.stripBytes = f.spiBytes ↔ f.Alike := by
  obtain ⟨leds, brightness⟩ := f
  simp only [Frame.stripBytes, Frame.spiBytes, Frame.Alike]
  induction leds with
  | nil => simp
  | cons a leds ih =>
      rw [List.flatMap_cons, List.flatMap_cons, List.forall_mem_cons, ← ih,
        ← a.ledBytes_eq_iff brightness]
      constructor
      · intro h
        exact List.append_inj h rfl
      · rintro ⟨hhead, htail⟩
        rw [hhead, htail]

theorem Frame.off_alike (brightness : UInt8) : (Frame.off brightness).Alike := by
  intro a ha
  rw [List.eq_of_mem_replicate ha]
  simp [Asked.Alike, ChannelAlike, DimmedAlike, SK6812_OFF]

theorem Frame.shown_eq_iff (f : Frame) (calls : List Call) :
    f.shown Frame.stripBytes calls = f.shown Frame.spiBytes calls ↔
      ∀ front rc back, calls = front ++ .refresh rc :: back → (front.foldl Frame.call f).Alike := by
  induction calls generalizing f with
  | nil => simp [Frame.shown]
  | cons c calls ih =>
      have hlater : (∀ front rc back, c :: calls = front ++ .refresh rc :: back →
            (front.foldl Frame.call f).Alike) ↔
          ((∀ rc, c = .refresh rc → f.Alike) ∧
            ∀ front rc back, calls = front ++ .refresh rc :: back →
              (front.foldl Frame.call (f.call c)).Alike) := by
        constructor
        · intro h
          constructor
          · rintro rc rfl
            exact h [] rc calls rfl
          · intro front rc back hcalls
            exact h (c :: front) rc back (by rw [hcalls, List.cons_append])
        · rintro ⟨hnow, hrest⟩ front rc back hcalls
          cases front with
          | nil =>
              obtain ⟨rfl, rfl⟩ := List.cons.inj hcalls
              exact hnow rc rfl
          | cons c' front =>
              obtain ⟨rfl, rfl⟩ := List.cons.inj hcalls
              exact hrest front rc back rfl
      rw [hlater, ← ih (f.call c), Frame.shown, Frame.shown]
      cases c with
      | refresh rc => simp [Call.sends, Frame.call, Frame.bytes_eq_iff]
      | clear rc =>
          have hoff := (Frame.bytes_eq_iff _).mpr (Frame.off_alike f.brightness)
          simp [Call.sends, Frame.call, hoff]
      | _ => simp [Call.sends]

/-- The two backends put the same bytes on the wire in every refresh if and
only if every refresh finds all channels in the range where the two agree. -/
theorem backends_agree_iff (rc : Int) (calls : List Call) :
    Zephyr.wire calls = Spi.wire rc calls ↔
      ∀ front rc' back, calls = front ++ .refresh rc' :: back →
        (front.foldl Frame.call (Frame.off 0xFF)).Alike := by
  rw [Zephyr.wire_eq, Spi.wire_eq, List.cons.injEq, Frame.shown_eq_iff,
    Frame.bytes_eq_iff]
  simp [Frame.off_alike]

/-- Full white at full brightness: 254 over the strip driver, 255 over SPI. -/
theorem full_white_differs :
    Zephyr.wire [.fill ⟨255, 255, 255, 255⟩, .refresh 0] ≠
      Spi.wire 0 [.fill ⟨255, 255, 255, 255⟩, .refresh 0] := by
  rw [Zephyr.wire_eq, Spi.wire_eq]
  decide

end Rw612.Led
