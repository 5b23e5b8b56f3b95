import Rw612.Lib.Bits

/-!
The LED strip behind `sk6812.h` as the Zephyr backend drives it:
`led_strip_zephyr.c` for a strip of type SK6812, and the calls of
`led_task_zephyr.c` over it. A frame on the wire is the bits sent between two
resets.
-/

namespace Rw612.Led

open Lib

/-- `sk6812_color_t`. -/
structure Sk6812Color where
  r : UInt8
  g : UInt8
  b : UInt8
  w : UInt8
  deriving DecidableEq, Repr

def SK6812_OFF : Sk6812Color := ⟨0, 0, 0, 0⟩

def APP_LED_COUNT : Nat := 8

namespace Zephyr

def LED_STRIP_MAX_COUNT : Nat := 64

def EINVAL : Int := -22
def EAGAIN : Int := -11

/-- `rgbw_color_t`. -/
structure RgbwColor where
  r : UInt8
  g : UInt8
  b : UInt8
  w : UInt8
  deriving DecidableEq, Repr

def COLOR_OFF : RgbwColor := ⟨0, 0, 0, 0⟩

/-- The variables of `led_strip_zephyr.c`, and the frames sent so far. -/
structure LedStrip where
  count : Nat
  pixels : List RgbwColor
  brightness : UInt8
  inited : Bool
  sent : List (List Bool)
  deriving DecidableEq

def LedStrip.powerUp : LedStrip where
  count := 0
  pixels := List.replicate LED_STRIP_MAX_COUNT COLOR_OFF
  brightness := 255
  inited := false
  sent := []

/-- The product is at most 255 · 255, so the cast drops nothing. -/
def applyBrightness (brightness ch : UInt8) : UInt8 :=
  UInt8.ofNat ((ch.toNat * brightness.toNat) >>> 8)

/-- `sk6812_send_byte`. -/
def sendByte (v : UInt8) : List Bool := msbFirst v

/-- The four bytes of one LED in the order they are sent. -/
def ledBytes (brightness : UInt8) (c : RgbwColor) : List UInt8 :=
  [applyBrightness brightness c.g, applyBrightness brightness c.r,
    applyBrightness brightness c.b, applyBrightness brightness c.w]

/-- `sk6812_refresh` of the strip driver. -/
def stripRefresh (s : LedStrip) : Int × LedStrip :=
  (0, { s with sent := s.sent ++
    [(s.pixels.take s.count).flatMap fun c => (ledBytes s.brightness c).flatMap sendByte] })

def ledStripRefresh (s : LedStrip) : Int × LedStrip :=
  if s.inited then stripRefresh s else (EAGAIN, s)

def ledStripSetPixel (idx : Nat) (color : RgbwColor) (s : LedStrip) : Int × LedStrip :=
  if !s.inited || idx ≥ s.count then (EINVAL, s)
  else (0, { s with pixels := s.pixels.set idx color })

def ledStripFill (color : RgbwColor) (s : LedStrip) : Int × LedStrip :=
  if s.inited then
    (0, { s with pixels := List.replicate s.count color ++ s.pixels.drop s.count })
  else (EAGAIN, s)

def ledStripClear (s : LedStrip) : Int × LedStrip :=
  if s.inited then
    ledStripRefresh { s with
      pixels := List.replicate s.count COLOR_OFF ++ s.pixels.drop s.count }
  else (EAGAIN, s)

def ledStripSetBrightness (br : UInt8) (s : LedStrip) : LedStrip :=
  { s with brightness := br }

def ledStripCount (s : LedStrip) : UInt16 := if s.inited then UInt16.ofNat s.count else 0

/-- `led_strip_init`; `pinRc` is what bringing up the pin answers. -/
def ledStripInit (count : Nat) (brightness : UInt8) (pinRc : Int) (s : LedStrip) :
    Int × LedStrip :=
  if count = 0 ∨ count > LED_STRIP_MAX_COUNT then (EINVAL, s)
  else
    let s := { s with
      count := count
      brightness := brightness
      inited := false
      pixels := List.replicate LED_STRIP_MAX_COUNT COLOR_OFF }
    if pinRc ≠ 0 then (pinRc, s) else (0, (ledStripClear { s with inited := true }).2)

/-- The configuration of `led_task_start` for a strip of type SK6812. -/
def ledTaskStart (pinRc : Int) (s : LedStrip) : Int × LedStrip :=
  ledStripInit APP_LED_COUNT 0xFF pinRc s

def toRgbw (c : Sk6812Color) : RgbwColor := ⟨c.r, c.g, c.b, c.w⟩

/-- The cast to `uint8_t` of one channel of the scaled calls. -/
def scaledChannel (v pct : UInt8) : UInt8 := UInt8.ofNat (v.toNat * pct.toNat / 100)

def scaledColor (c : Sk6812Color) (pct : UInt8) : RgbwColor :=
  ⟨scaledChannel c.r pct, scaledChannel c.g pct, scaledChannel c.b pct,
    scaledChannel c.w pct⟩

def sk6812SetPixel (idx : Nat) (c : Sk6812Color) (s : LedStrip) : Int × LedStrip :=
  ledStripSetPixel idx (toRgbw c) s

def sk6812Fill (c : Sk6812Color) (s : LedStrip) : Int × LedStrip :=
  ledStripFill (toRgbw c) s

def sk6812FillScaled (c : Sk6812Color) (pct : UInt8) (s : LedStrip) : Int × LedStrip :=
  ledStripFill (scaledColor c pct) s

def sk6812SetPixelScaled (idx : Nat) (c : Sk6812Color) (pct : UInt8) (s : LedStrip) :
    Int × LedStrip :=
  ledStripSetPixel idx (scaledColor c pct) s

def sk6812Clear (s : LedStrip) : Int × LedStrip := ledStripClear s

def sk6812SetBrightness (scale : UInt8) (s : LedStrip) : LedStrip :=
  ledStripSetBrightness scale s

def sk6812Refresh (s : LedStrip) : Int × LedStrip := ledStripRefresh s

/-- The bytes of a frame on the wire. -/
def wireBytes (frame : List Bool) : List UInt8 := bytesOf frame

end Zephyr

end Rw612.Led
