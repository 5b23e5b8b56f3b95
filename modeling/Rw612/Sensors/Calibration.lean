import Mathlib.Algebra.Order.Floor.Ring
import Mathlib.Data.Rat.Floor
import Mathlib.Tactic.Linarith
import Rw612.Lib.Doubling
import Rw612.Sensors.Image

/-!
The coefficients of every pixel that `mlx90640.c` extracts from the EEPROM, and the
normalisation of both sets. The coefficients are integers over powers of two, which
the floats of the source hold exactly.
-/

namespace Rw612.Sensors

open Lib

abbrev MLX90640_EE_WORDS : Nat := 832

instance : NeZero MLX90640_EE_WORDS := ⟨by decide⟩

abbrev Eeprom := Fin MLX90640_EE_WORDS → UInt16

/-- `2 * (p / 32 - (p / 64) * 2) + p % 2`: the class of a pixel, by row and column. -/
def split (p : Nat) : Nat := 2 * (p / 32 - p / 64 * 2) + p % 2

/-- `KtaRC`, each a byte in two's complement. -/
def ktaRC (ee : Eeprom) : Nat → Int8
  | 0 => ((ee 54 &&& 0xFF00) >>> 8).toUInt8.toInt8
  | 1 => ((ee 55 &&& 0xFF00) >>> 8).toUInt8.toInt8
  | 2 => (ee 54 &&& 0x00FF).toUInt8.toInt8
  | _ => (ee 55 &&& 0x00FF).toUInt8.toInt8

def ktaScale1 (ee : Eeprom) : Nat := ((ee 56 &&& 0x00F0) >>> 4).toNat + 8

def ktaScale2 (ee : Eeprom) : Nat := (ee 56 &&& 0x000F).toNat

/-- `n` from a field of unsigned values, where the upper half stands for `n - range`. -/
def signed (range : Nat) (n : UInt16) : Int :=
  if n.toNat > range / 2 - 1 then n.toNat - range else n.toNat

/-- The numerator of a coefficient over `2 ^ ktaScale1`. -/
def ktaValue (ee : Eeprom) (p : Fin MLX90640_PIXELS) : Int :=
  (ktaRC ee (split p)).toInt +
    signed 8 ((ee (Fin.natAdd 64 p) &&& 0x000E) >>> 1) * 2 ^ ktaScale2 ee

/-- `KvT`, each of four bits in two's complement. -/
def kvT (ee : Eeprom) : Nat → Int
  | 0 => signed 16 ((ee 52 &&& 0xF000) >>> 12)
  | 1 => signed 16 ((ee 52 &&& 0x00F0) >>> 4)
  | 2 => signed 16 ((ee 52 &&& 0x0F00) >>> 8)
  | _ => signed 16 (ee 52 &&& 0x000F)

def kvScale (ee : Eeprom) : Nat := ((ee 56 &&& 0x0F00) >>> 8).toNat

/-- `ktaTemp` -/
def ktaTemp (ee : Eeprom) (p : Fin MLX90640_PIXELS) : ℚ := ktaValue ee p / 2 ^ ktaScale1 ee

/-- `kvTemp` -/
def kvTemp (ee : Eeprom) (p : Fin MLX90640_PIXELS) : ℚ := kvT ee (split p) / 2 ^ kvScale ee

/-- The loop `while (temp < 64.0f)`, given a number of rounds. -/
def normalise : Nat → ℚ → UInt8 → Option UInt8
  | 0, _, _ => none
  | fuel + 1, temp, scale =>
      if temp < 64 then normalise fuel (temp * 2) (scale + 1) else some scale

/-- The largest magnitude, from the one of the first pixel on. -/
def largest (temps : Fin MLX90640_PIXELS → ℚ) : ℚ :=
  maxMagnitude |temps 0| ((List.finRange 767).map fun i => temps i.succ)

/-- `(int8_t)(t < 0 ? (t - 0.5f) : (t + 0.5f))`; C leaves open what becomes of a value
that does not fit. -/
def roundToInt8 (t : ℚ) : Int8 :=
  Int8.ofInt (if t < 0 then ⌈t - 1 / 2⌉ else ⌊t + 1 / 2⌋)

/-- Coefficients as `mlx90640_t` stores them. -/
structure Scaled where
  coef : Fin MLX90640_PIXELS → Int8
  scale : UInt8

/-- The second half of both extractions. -/
def scaleAll (fuel : Nat) (temps : Fin MLX90640_PIXELS → ℚ) : Option Scaled :=
  (normalise fuel (largest temps) 0).map fun scale =>
    ⟨fun i => roundToInt8 (temps i * 2 ^ scale.toNat), scale⟩

def extractKtaPixel (fuel : Nat) (ee : Eeprom) : Option Scaled := scaleAll fuel (ktaTemp ee)

def extractKvPixel (fuel : Nat) (ee : Eeprom) : Option Scaled := scaleAll fuel (kvTemp ee)

/-- `mlx90640_extract_parameters`, as far as the two go. -/
def mlx90640ExtractParameters (fuel : Nat) (ee : Eeprom) : Option (Scaled × Scaled) := do
  let kta ← extractKtaPixel fuel ee
  let kv ← extractKvPixel fuel ee
  return (kta, kv)

/-- The loop counts its doublings, in eight bits. -/
theorem normalise_eq (fuel : Nat) (temp : ℚ) (n : Nat) :
    normalise fuel temp (UInt8.ofNat n) =
      (doubleUntil 64 fuel temp n).map fun r => UInt8.ofNat r.2 := by
  induction fuel generalizing temp n with
  | zero => rfl
  | succ fuel ih =>
      rw [normalise, doubleUntil]
      split
      · rw [← ih (temp * 2) (n + 1), UInt8.ofNat_add]
        rfl
      · rfl

section Scale

variable {temps : Fin MLX90640_PIXELS → ℚ}

theorem scaleAll_ends {k fuel : Nat} (hk : ReachesAfter 64 (largest temps) k) (hbyte : k < 256)
    (hfuel : k < fuel) : ∃ r, scaleAll fuel temps = some r ∧ r.scale.toNat = k := by
  have hloop : normalise fuel (largest temps) 0 = some (UInt8.ofNat k) := by
    have h := normalise_eq fuel (largest temps) 0
    rw [doubleUntil_of_reaches hk hfuel, Nat.zero_add] at h
    exact h
  rw [scaleAll, hloop]
  exact ⟨_, rfl, UInt8.toNat_ofNat_of_lt' hbyte⟩

theorem scaleAll_zero (hzero : largest temps = 0) (fuel : Nat) : scaleAll fuel temps = none := by
  have hloop : normalise fuel (largest temps) 0 = none := by
    have h := normalise_eq fuel (largest temps) 0
    rw [hzero, doubleUntil_zero (by norm_num)] at h
    rw [hzero]
    exact h
  rw [scaleAll, hloop]
  rfl

variable (temps)

theorem le_largest (p : Fin MLX90640_PIXELS) : |temps p| ≤ largest temps := by
  obtain ⟨hfirst, hrest⟩ := le_maxMagnitude |temps 0|
    ((List.finRange 767).map fun i => temps i.succ)
  cases p using Fin.cases with
  | zero => exact hfirst
  | succ i => exact hrest _ (List.mem_map_of_mem (List.mem_finRange i))

theorem largest_mem : ∃ p, largest temps = |temps p| := by
  rcases maxMagnitude_eq |temps 0| ((List.finRange 767).map fun i => temps i.succ) with h | h
  · exact ⟨0, h⟩
  · obtain ⟨x, hx, h⟩ := h
    obtain ⟨i, -, rfl⟩ := List.mem_map.mp hx
    exact ⟨i.succ, h⟩

end Scale

/-- Of integers over one power of two, not all zero, one is at least one unit. -/
theorem largest_reaches {num : Fin MLX90640_PIXELS → Int} {s : Nat} {p : Fin MLX90640_PIXELS}
    (hp : num p ≠ 0) :
    ∃ k ≤ s + 6, ReachesAfter 64 (largest fun p => (num p : ℚ) / 2 ^ s) k := by
  apply exists_reachesAfter
  have hpow : (0 : ℚ) < 2 ^ s := pow_pos (by norm_num) s
  have hunit : (1 : ℚ) ≤ |(num p : ℚ)| := by
    exact_mod_cast Int.one_le_abs hp
  have hle : |(num p : ℚ) / 2 ^ s| ≤ _ := le_largest (fun p => (num p : ℚ) / 2 ^ s) p
  rw [abs_div, abs_of_pos hpow, div_le_iff₀ hpow] at hle
  rw [pow_add, ← mul_assoc]
  linarith

theorem largest_zero {num : Fin MLX90640_PIXELS → Int} {s : Nat} (hnum : ∀ p, num p = 0) :
    (largest fun p => (num p : ℚ) / 2 ^ s) = 0 := by
  obtain ⟨p, hp⟩ := largest_mem fun p => (num p : ℚ) / 2 ^ s
  rw [hp, hnum p]
  simp

/-! The fields of the words -/

theorem field_le (w m k : UInt16) : ((w &&& m) >>> k).toNat ≤ (m >>> k).toNat := by
  rw [UInt16.toNat_shiftRight, UInt16.toNat_shiftRight, UInt16.toNat_and,
    Nat.shiftRight_eq_div_pow, Nat.shiftRight_eq_div_pow]
  exact Nat.div_le_div_right Nat.and_le_right

theorem ktaScale1_le (ee : Eeprom) : ktaScale1 ee ≤ 23 :=
  Nat.add_le_add_right (field_le (ee 56) 0x00F0 4) 8

theorem kvScale_le (ee : Eeprom) : kvScale ee ≤ 15 := field_le (ee 56) 0x0F00 8

theorem signed_eq_zero {range : Nat} {n : UInt16} (hn : n.toNat < range)
    (hzero : signed range n = 0) : n = 0 := by
  apply UInt16.toNat_inj.mp
  unfold signed at hzero
  split at hzero
  · omega
  · exact_mod_cast hzero

/-- A word is made of its four nibbles. -/
theorem nibbles_eq_zero {w : UInt16} (h3 : (w &&& 0xF000) >>> 12 = 0)
    (h2 : (w &&& 0x0F00) >>> 8 = 0) (h1 : (w &&& 0x00F0) >>> 4 = 0) (h0 : w &&& 0x000F = 0) :
    w = 0 := by
  have hw : w = ((w &&& 0xF000) >>> 12) <<< 12 ||| ((w &&& 0x0F00) >>> 8) <<< 8 |||
      ((w &&& 0x00F0) >>> 4) <<< 4 ||| (w &&& 0x000F) := by
    apply UInt16.toBitVec_inj.mp
    apply BitVec.eq_of_getLsbD_eq
    intro i hi
    interval_cases i <;> simp
  rw [hw, h3, h2, h1, h0]
  rfl

/-- The four numbers of word 52 are all zero only if the word is. -/
theorem kvT_zero_iff (ee : Eeprom) :
    (∀ p : Fin MLX90640_PIXELS, kvT ee (split p) = 0) ↔ ee 52 = 0 := by
  constructor
  · intro hall
    have hfield (m k : UInt16) (hm : (m >>> k).toNat < 16) : ((ee 52 &&& m) >>> k).toNat < 16 :=
      Nat.lt_of_le_of_lt (field_le _ m k) hm
    have h3 := signed_eq_zero (hfield 0xF000 12 (by decide)) (hall 0)
    have h1 := signed_eq_zero (hfield 0x00F0 4 (by decide)) (hall 1)
    have h2 := signed_eq_zero (hfield 0x0F00 8 (by decide)) (hall 32)
    have hlow : (ee 52 &&& 0x000F).toNat ≤ 15 := by
      rw [UInt16.toNat_and]
      exact Nat.and_le_right
    have h0 := signed_eq_zero (Nat.lt_succ_of_le hlow) (hall 33)
    exact nibbles_eq_zero h3 h2 h1 h0
  · intro hword p
    unfold kvT
    rw [hword]
    split <;> decide

/-! Both extractions -/

/-- The loops come to an end, and each scale is the number of doublings that its
largest coefficient takes to reach 64: it has not wrapped. -/
def Extracts (ee : Eeprom) : Prop :=
  ∃ fuel kta kv, mlx90640ExtractParameters fuel ee = some (kta, kv) ∧
    ReachesAfter 64 (largest (ktaTemp ee)) kta.scale.toNat ∧
    ReachesAfter 64 (largest (kvTemp ee)) kv.scale.toNat

/-- For every pixel the field of its word cancels the byte of its class. -/
def KtaCancels (ee : Eeprom) : Prop :=
  ∀ p : Fin MLX90640_PIXELS,
    signed 8 ((ee (Fin.natAdd 64 p) &&& 0x000E) >>> 1) * 2 ^ ktaScale2 ee =
      -(ktaRC ee (split p)).toInt

theorem ktaCancels_iff (ee : Eeprom) : KtaCancels ee ↔ ∀ p, ktaValue ee p = 0 := by
  unfold KtaCancels ktaValue
  apply forall_congr'
  intro p
  omega

/-- Thirty rounds are enough for both loops. -/
theorem extractParameters_ends {ee : Eeprom} (hkta : ¬KtaCancels ee) (hkv : ee 52 ≠ 0) :
    ∃ kta kv, mlx90640ExtractParameters 30 ee = some (kta, kv) ∧
      ReachesAfter 64 (largest (ktaTemp ee)) kta.scale.toNat ∧
      ReachesAfter 64 (largest (kvTemp ee)) kv.scale.toNat := by
  have hscale1 := ktaScale1_le ee
  have hkvScale := kvScale_le ee
  rw [ktaCancels_iff] at hkta
  rw [ne_eq, ← kvT_zero_iff] at hkv
  obtain ⟨p, hp⟩ := not_forall.mp hkta
  obtain ⟨q, hq⟩ := not_forall.mp hkv
  obtain ⟨j, hj, hjreach⟩ : ∃ k ≤ ktaScale1 ee + 6, ReachesAfter 64 (largest (ktaTemp ee)) k :=
    largest_reaches hp
  obtain ⟨k, hk, hkreach⟩ : ∃ k ≤ kvScale ee + 6, ReachesAfter 64 (largest (kvTemp ee)) k :=
    largest_reaches hq
  obtain ⟨kta, hktaEq, hktaScale⟩ := scaleAll_ends hjreach (by omega) (show j < 30 by omega)
  obtain ⟨kv, hkvEq, hkvScale⟩ := scaleAll_ends hkreach (by omega) (show k < 30 by omega)
  refine ⟨kta, kv, ?_, ?_, ?_⟩
  · rw [mlx90640ExtractParameters, extractKtaPixel, hktaEq, extractKvPixel, hkvEq]
    rfl
  · rw [hktaScale]
    exact hjreach
  · rw [hkvScale]
    exact hkreach

theorem extractKtaPixel_cancels {ee : Eeprom} (hkta : KtaCancels ee) (fuel : Nat) :
    extractKtaPixel fuel ee = none :=
  scaleAll_zero (largest_zero ((ktaCancels_iff ee).mp hkta)) fuel

theorem extractKvPixel_blank {ee : Eeprom} (hkv : ee 52 = 0) (fuel : Nat) :
    extractKvPixel fuel ee = none :=
  scaleAll_zero (largest_zero fun p => (kvT_zero_iff ee).mpr hkv p) fuel

/-- The extraction comes to an end exactly if neither set of coefficients is all zero. -/
theorem extractParameters_ends_iff (ee : Eeprom) :
    Extracts ee ↔ ¬KtaCancels ee ∧ ee 52 ≠ 0 := by
  constructor
  · rintro ⟨fuel, kta, kv, hboth, -, -⟩
    constructor
    · intro hkta
      rw [mlx90640ExtractParameters, extractKtaPixel_cancels hkta] at hboth
      cases hboth
    · intro hkv
      rw [mlx90640ExtractParameters, extractKvPixel_blank hkv] at hboth
      cases hkta : extractKtaPixel fuel ee with
      | none =>
          rw [hkta] at hboth
          cases hboth
      | some r =>
          rw [hkta] at hboth
          cases hboth
  · rintro ⟨hkta, hkv⟩
    exact ⟨30, extractParameters_ends hkta hkv⟩

/-- A dump of zeros is never extracted. -/
theorem blank_eeprom : ¬∀ ee : Eeprom, Extracts ee := by
  intro hall
  obtain ⟨fuel, kta, kv, hboth, -, -⟩ := hall fun _ => 0
  have hcancels : KtaCancels fun _ => 0 := by
    intro p
    have hrc : (ktaRC (fun _ => 0) (split p)).toInt = 0 := by
      unfold ktaRC
      split <;> decide
    have hfield : signed 8 (((0 : UInt16) &&& 0x000E) >>> 1) = 0 := by decide
    rw [hrc, hfield, zero_mul, neg_zero]
  rw [mlx90640ExtractParameters, extractKtaPixel_cancels hcancels] at hboth
  cases hboth

end Rw612.Sensors
