import Mathlib.Data.Nat.Bitwise
import Mathlib.Tactic.IntervalCases
import Mathlib.Tactic.Ring

/-!
Words sent bit by bit, least significant bit first. `ofBits` is the number a
list of bits spells, and a shift register that ors each bit in at its position
arrives at that number. A byte can also be sent from its most significant bit
on.

The last part is about bytes that hold two values of four bits each.
-/

namespace Rw612.Lib

/-- The number whose binary digits are `bits`, least significant first. -/
def ofBits : List Bool → Nat
  | [] => 0
  | b :: bits => b.toNat + 2 * ofBits bits

/-- The first `k` binary digits of `n`, least significant first. -/
def toBits : Nat → Nat → List Bool
  | 0, _ => []
  | k + 1, n => (n % 2 == 1) :: toBits k (n / 2)

@[simp] theorem toBits_length (k n : Nat) : (toBits k n).length = k := by
  induction k generalizing n with
  | zero => rfl
  | succ k ih => simp [toBits, ih]

theorem toBits_add (j k n : Nat) :
    toBits (j + k) n = toBits j n ++ toBits k (n / 2 ^ j) := by
  induction j generalizing n with
  | zero => simp [toBits]
  | succ j ih =>
      rw [Nat.succ_add, toBits, ih, toBits, Nat.div_div_eq_div_mul,
        Nat.pow_succ', List.cons_append]

theorem ofBits_append (front back : List Bool) :
    ofBits (front ++ back) = ofBits front + 2 ^ front.length * ofBits back := by
  induction front with
  | nil => simp [ofBits]
  | cons b front ih =>
      simp only [List.cons_append, ofBits, ih, List.length_cons, Nat.pow_succ]
      ring

theorem ofBits_lt (bits : List Bool) : ofBits bits < 2 ^ bits.length := by
  induction bits with
  | nil => simp [ofBits]
  | cons b bits ih =>
      simp only [ofBits, List.length_cons, Nat.pow_succ]
      cases b <;> simp <;> omega

theorem ofBits_toBits {k n : Nat} (hn : n < 2 ^ k) : ofBits (toBits k n) = n := by
  induction k generalizing n with
  | zero =>
      obtain rfl : n = 0 := by simpa using hn
      rfl
  | succ k ih =>
      have hhalf : n / 2 < 2 ^ k := by
        rw [Nat.pow_succ] at hn
        omega
      simp only [toBits, ofBits, ih hhalf]
      rcases Nat.mod_two_eq_zero_or_one n with h | h <;> simp [h] <;> omega

/-- Setting a bit above all digits of `acc` adds its weight. -/
theorem lor_shiftLeft_of_lt {acc pos : Nat} (h : acc < 2 ^ pos) (b : Bool) :
    acc ||| (b.toNat <<< pos) = acc + 2 ^ pos * b.toNat := by
  rw [Nat.shiftLeft_eq, Nat.mul_comm, Nat.lor_comm,
    ← Nat.two_pow_add_eq_or_of_lt h, Nat.add_comm]

/-- The shift register: each bit is ored in at its own position. -/
def collect (acc pos : Nat) : List Bool → Nat
  | [] => acc
  | b :: bits => collect (acc ||| (b.toNat <<< pos)) (pos + 1) bits

theorem collect_eq (acc pos : Nat) (bits : List Bool) (h : acc < 2 ^ pos) :
    collect acc pos bits = acc + 2 ^ pos * ofBits bits := by
  induction bits generalizing acc pos with
  | nil => simp [collect, ofBits]
  | cons b bits ih =>
      have hnext : acc + 2 ^ pos * b.toNat < 2 ^ (pos + 1) := by
        rw [Nat.pow_succ]
        cases b <;> simp <;> omega
      rw [collect, lor_shiftLeft_of_lt h, ih _ _ hnext, ofBits, Nat.pow_succ]
      ring

section MsbFirst

/-- A byte as a loop from bit 7 down to bit 0 sends it. -/
def msbFirst (v : UInt8) : List Bool :=
  (List.range 8).map fun k => v.toNat.testBit (7 - k)

/-- The bytes of a line of bits, eight bits each, most significant bit first. -/
def bytesOf : List Bool → List UInt8
  | b₇ :: b₆ :: b₅ :: b₄ :: b₃ :: b₂ :: b₁ :: b₀ :: rest =>
      UInt8.ofNat (ofBits [b₀, b₁, b₂, b₃, b₄, b₅, b₆, b₇]) :: bytesOf rest
  | _ => []

theorem bytesOf_cons (bits rest : List Bool) (h : bits.length = 8) :
    bytesOf (bits ++ rest) = UInt8.ofNat (ofBits bits.reverse) :: bytesOf rest := by
  match bits, h with
  | [_, _, _, _, _, _, _, _], _ => rfl

theorem msbFirst_reverse (v : UInt8) : (msbFirst v).reverse = toBits 8 v.toNat := by
  simp [msbFirst, List.range_succ, toBits, Nat.testBit_eq_decide_div_mod_eq,
    Nat.div_div_eq_div_mul, beq_eq_decide]

/-- Bytes sent bit by bit arrive. -/
theorem bytesOf_msbFirst (bytes : List UInt8) :
    bytesOf (bytes.flatMap msbFirst) = bytes := by
  induction bytes with
  | nil => rfl
  | cons v bytes ih =>
      have hv : v.toNat < 2 ^ 8 := v.toNat_lt
      rw [List.flatMap_cons, bytesOf_cons _ _ (by simp [msbFirst]), ih,
        msbFirst_reverse, ofBits_toBits hv, UInt8.ofNat_toNat]

end MsbFirst

section Nibbles

def lowNibble (b : UInt8) : UInt8 := b &&& 0x0F

def highNibble (b : UInt8) : UInt8 := (b >>> 4) &&& 0x0F

def setLowNibble (b n : UInt8) : UInt8 := (b &&& 0xF0) ||| (n &&& 0x0F)

def setHighNibble (b n : UInt8) : UInt8 := (b &&& 0x0F) ||| ((n &&& 0x0F) <<< (4 : UInt8))

/-- The byte with these two nibbles. -/
def joinNibbles (high low : UInt8) : UInt8 :=
  ((high &&& 0x0F) <<< (4 : UInt8)) ||| (low &&& 0x0F)

theorem byte_ext {a b : UInt8}
    (h : ∀ i, i < 8 → a.toBitVec.getLsbD i = b.toBitVec.getLsbD i) : a = b :=
  UInt8.toBitVec_inj.mp (BitVec.eq_of_getLsbD_eq h)

variable (b n : UInt8)

@[simp] theorem lowNibble_setHighNibble : lowNibble (setHighNibble b n) = lowNibble b := by
  apply byte_ext
  intro i hi
  interval_cases i <;> simp [lowNibble, setHighNibble]

@[simp] theorem highNibble_setHighNibble :
    highNibble (setHighNibble b n) = lowNibble n := by
  apply byte_ext
  intro i hi
  interval_cases i <;> simp [lowNibble, highNibble, setHighNibble]

@[simp] theorem lowNibble_setLowNibble : lowNibble (setLowNibble b n) = lowNibble n := by
  apply byte_ext
  intro i hi
  interval_cases i <;> simp [lowNibble, setLowNibble]

@[simp] theorem highNibble_setLowNibble :
    highNibble (setLowNibble b n) = highNibble b := by
  apply byte_ext
  intro i hi
  interval_cases i <;> simp [highNibble, setLowNibble]

theorem setHighNibble_low : setHighNibble b n &&& 0x0F = b &&& 0x0F :=
  lowNibble_setHighNibble b n

theorem setLowNibble_high : setLowNibble b n &&& 0xF0 = b &&& 0xF0 := by
  apply byte_ext
  intro i hi
  interval_cases i <;> simp [setLowNibble]

@[simp] theorem highNibble_joinNibbles (h l : UInt8) :
    highNibble (joinNibbles h l) = lowNibble h := by
  apply byte_ext
  intro i hi
  interval_cases i <;> simp [highNibble, lowNibble, joinNibbles]

@[simp] theorem lowNibble_joinNibbles (h l : UInt8) :
    lowNibble (joinNibbles h l) = lowNibble l := by
  apply byte_ext
  intro i hi
  interval_cases i <;> simp [lowNibble, joinNibbles]

theorem joinNibbles_congr {h h' : UInt8} (heq : lowNibble h = lowNibble h') (l : UInt8) :
    joinNibbles h l = joinNibbles h' l := by
  rw [lowNibble, lowNibble] at heq
  rw [joinNibbles, joinNibbles, heq]

@[simp] theorem lowNibble_highNibble : lowNibble (highNibble b) = highNibble b := by
  apply byte_ext
  intro i hi
  interval_cases i <;> simp [lowNibble, highNibble]

theorem setHighNibble_eq_self (h : lowNibble n = highNibble b) : setHighNibble b n = b := by
  rw [lowNibble] at h
  rw [setHighNibble, h]
  apply byte_ext
  intro i hi
  interval_cases i <;> simp [highNibble]

theorem setLowNibble_eq_self (h : lowNibble n = lowNibble b) : setLowNibble b n = b := by
  rw [lowNibble, lowNibble] at h
  rw [setLowNibble, h]
  apply byte_ext
  intro i hi
  interval_cases i <;> simp

end Nibbles

section Flip

theorem byte_forall {p : UInt8 → Prop} (h : ∀ n < 256, p (UInt8.ofNat n)) : ∀ b, p b := by
  intro b
  have hb := h b.toNat b.toNat_lt
  rwa [UInt8.ofNat_toNat] at hb

def bitOf (b : UInt8) (i : Nat) : Nat := (b.toBitVec.getLsbD i).toNat

theorem bitOf_le (b : UInt8) (i : Nat) : bitOf b i ≤ 1 := Bool.toNat_le _

/-- `b` with bit `k` inverted. -/
def invertBit (k : Nat) (b : UInt8) : UInt8 := b ^^^ (1 <<< UInt8.ofNat k)

theorem getLsbD_invertBit (b : UInt8) {i k : Nat} (hi : i < 8) (hk : k < 8) :
    (invertBit k b).toBitVec.getLsbD i = (b.toBitVec.getLsbD i ^^ decide (i = k)) := by
  have hmask : ∀ i < 8, ∀ k < 8,
      ((1 : UInt8) <<< UInt8.ofNat k).toBitVec.getLsbD i = decide (i = k) := by decide
  rw [invertBit, UInt8.toBitVec_xor, BitVec.getLsbD_xor, hmask i hi k hk]

theorem bitOf_invertBit (b : UInt8) {i k : Nat} (hi : i < 8) (hk : k < 8) :
    bitOf (invertBit k b) i = if i = k then 1 - bitOf b i else bitOf b i := by
  rw [bitOf, getLsbD_invertBit b hi hk, bitOf]
  by_cases h : i = k
  · cases b.toBitVec.getLsbD i <;> simp [h]
  · simp [h]

theorem invertBit_ne (b : UInt8) {k : Nat} (hk : k < 8) : invertBit k b ≠ b := by
  intro h
  have hbit := congrArg (bitOf · k) h
  rw [bitOf_invertBit b hk hk, if_pos rfl] at hbit
  have hle := bitOf_le b k
  omega

theorem getLsbD_lowNibble (b : UInt8) {i : Nat} (hi : i < 8) :
    (lowNibble b).toBitVec.getLsbD i = (decide (i < 4) && b.toBitVec.getLsbD i) := by
  interval_cases i <;> simp [lowNibble]

theorem getLsbD_highNibble (b : UInt8) {i : Nat} (hi : i < 8) :
    (highNibble b).toBitVec.getLsbD i = (decide (i < 4) && b.toBitVec.getLsbD (i + 4)) := by
  interval_cases i <;> simp [highNibble]

theorem lowNibble_invertBit (b : UInt8) {k : Nat} (hk : k < 8) :
    lowNibble (invertBit k b) =
      if k < 4 then invertBit k (lowNibble b) else lowNibble b := by
  apply byte_ext
  intro i hi
  rw [getLsbD_lowNibble _ hi, getLsbD_invertBit b hi hk]
  split
  case isTrue hlow =>
      rw [getLsbD_invertBit _ hi hk, getLsbD_lowNibble b hi]
      by_cases h : i = k
      · simp [h, hlow]
      · simp [h]
  case isFalse hhigh =>
      rw [getLsbD_lowNibble b hi]
      by_cases h : i = k
      · simp [h, hhigh]
      · simp [h]

theorem highNibble_invertBit (b : UInt8) {k : Nat} (hk : k < 8) :
    highNibble (invertBit k b) =
      if k < 4 then highNibble b else invertBit (k - 4) (highNibble b) := by
  apply byte_ext
  intro i hi
  rw [getLsbD_highNibble _ hi]
  by_cases hlow : i < 4
  · rw [getLsbD_invertBit b (by omega) hk]
    split
    case isTrue hk4 =>
        have hne : ¬i + 4 = k := by omega
        rw [getLsbD_highNibble b hi]
        simp [hne]
    case isFalse hk4 =>
        have hiff : i + 4 = k ↔ i = k - 4 := by omega
        rw [getLsbD_invertBit _ hi (by omega), getLsbD_highNibble b hi]
        simp [hlow, hiff]
  · split
    case isTrue =>
        rw [getLsbD_highNibble b hi]
        simp [hlow]
    case isFalse =>
        have hne : ¬i = k - 4 := by omega
        rw [getLsbD_invertBit _ hi (by omega), getLsbD_highNibble b hi]
        simp [hlow, hne]

end Flip

end Rw612.Lib
