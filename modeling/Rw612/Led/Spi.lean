import Rw612.Led.Zephyr

/-!
The same interface over SPI: `sk6812.c`. Every bit of the strip becomes one
byte of the transfer, and the transfer ends in bytes that keep the line low.
-/

namespace Rw612.Led.Spi

open Lib

def APP_LED_SPI_BIT_ZERO : UInt8 := 0xC0
def APP_LED_SPI_BIT_ONE : UInt8 := 0xF0
def APP_LED_RESET_BYTES : Nat := 80

/-- The variables of `sk6812.c`, and the transfers made so far. -/
structure Sk6812 where
  pixels : List Sk6812Color
  brightness : UInt8
  initialised : Bool
  sent : List (List UInt8)
  deriving DecidableEq

def Sk6812.powerUp : Sk6812 where
  pixels := List.replicate APP_LED_COUNT SK6812_OFF
  brightness := 0xFF
  initialised := false
  sent := []

def scale8 (v s : UInt8) : UInt8 :=
  if s = 0xFF then v else UInt8.ofNat ((v.toNat * s.toNat + 128) / 255)

def spiByte (one : Bool) : UInt8 :=
  if one then APP_LED_SPI_BIT_ONE else APP_LED_SPI_BIT_ZERO

def encodeByte (v : UInt8) : List UInt8 := (msbFirst v).map spiByte

/-- The four bytes of one LED in the order they are encoded. -/
def ledBytes (br : UInt8) (c : Sk6812Color) : List UInt8 :=
  [scale8 c.g br, scale8 c.r br, scale8 c.b br, scale8 c.w br]

/-- `rc` is what the transfer answers. -/
def sk6812Refresh (rc : Int) (s : Sk6812) : Int × Sk6812 :=
  if s.initialised then
    (rc, { s with sent := s.sent ++
      [(s.pixels.flatMap fun c => (ledBytes s.brightness c).flatMap encodeByte) ++
        List.replicate APP_LED_RESET_BYTES 0x00] })
  else (-1, s)

/-- `sk6812_init`; `ioRc` is what bringing up the peripheral answers. -/
def sk6812Init (ioRc rc : Int) (s : Sk6812) : Int × Sk6812 :=
  let zeroed := { s with pixels := List.replicate APP_LED_COUNT SK6812_OFF }
  if s.initialised then sk6812Refresh rc zeroed
  else if ioRc ≠ 0 then (-2, s)
  else sk6812Refresh rc { zeroed with initialised := true }

def sk6812SetPixel (idx : Nat) (c : Sk6812Color) (s : Sk6812) : Int × Sk6812 :=
  if idx ≥ APP_LED_COUNT then (-1, s) else (0, { s with pixels := s.pixels.set idx c })

def sk6812Fill (c : Sk6812Color) (s : Sk6812) : Int × Sk6812 :=
  (0, { s with pixels := List.replicate APP_LED_COUNT c })

def scalePctChannel (v pct : UInt8) : UInt8 := UInt8.ofNat (v.toNat * pct.toNat / 100)

def scalePct (c : Sk6812Color) (pct : UInt8) : Sk6812Color :=
  let pct := if pct > 100 then 100 else pct
  ⟨scalePctChannel c.r pct, scalePctChannel c.g pct, scalePctChannel c.b pct,
    scalePctChannel c.w pct⟩

def sk6812FillScaled (c : Sk6812Color) (pct : UInt8) (s : Sk6812) : Int × Sk6812 :=
  sk6812Fill (scalePct c pct) s

def sk6812SetPixelScaled (idx : Nat) (c : Sk6812Color) (pct : UInt8) (s : Sk6812) :
    Int × Sk6812 :=
  sk6812SetPixel idx (scalePct c pct) s

def sk6812Clear (rc : Int) (s : Sk6812) : Int × Sk6812 :=
  sk6812Refresh rc (sk6812Fill SK6812_OFF s).2

def sk6812SetBrightness (scale : UInt8) (s : Sk6812) : Sk6812 :=
  { s with brightness := scale }

/-- The bit an SPI byte shows to the strip; a reset byte shows none. -/
def spiBit (v : UInt8) : Option Bool :=
  if v = APP_LED_SPI_BIT_ONE then some true
  else if v = APP_LED_SPI_BIT_ZERO then some false
  else none

/-- The bytes of a transfer, each from its group of eight. -/
def wireBytes (tx : List UInt8) : List UInt8 := bytesOf (tx.filterMap spiBit)

theorem spiBit_spiByte (one : Bool) : spiBit (spiByte one) = some one := by
  cases one <;> rfl

theorem filterMap_encodeByte (bytes : List UInt8) :
    (bytes.flatMap encodeByte).filterMap spiBit = bytes.flatMap msbFirst := by
  induction bytes with
  | nil => rfl
  | cons v bytes ih =>
      have hbits : (encodeByte v).filterMap spiBit = msbFirst v := by
        rw [encodeByte, List.filterMap_map]
        simp only [Function.comp_def, spiBit_spiByte, List.filterMap_some]
      rw [List.flatMap_cons, List.filterMap_append, hbits, ih, List.flatMap_cons]

/-- Decoding a transfer gives back the bytes that were expanded into it. -/
theorem wireBytes_encode (bytes : List UInt8) (resets : Nat) :
    wireBytes (bytes.flatMap encodeByte ++ List.replicate resets 0x00) = bytes := by
  have hreset : (List.replicate resets (0x00 : UInt8)).filterMap spiBit = [] := by
    rw [List.filterMap_eq_nil_iff]
    intro v hv
    rw [List.eq_of_mem_replicate hv]
    rfl
  rw [wireBytes, List.filterMap_append, hreset, List.append_nil, filterMap_encodeByte,
    bytesOf_msbFirst]

end Rw612.Led.Spi
