import Mathlib.Algebra.Ring.Int.Defs
import Mathlib.Data.Int.ModEq
import Mathlib.Data.ZMod.Basic
import Rw612.Lib.Walk

/-!
The quadrature count of `rotary_enc.c`. The two lines of the encoder are sampled
at each edge; a table indexed by the old and the new sample tells by how much the
count changes. What the count stands for is the number of steps the pair of lines
has gone around the cycle 00, 10, 11, 01.
-/

namespace Rw612.Rotary

open Lib

/-- `(A << 1) | B`. -/
abbrev Lines := BitVec 2

/-- A sample; of the two values `gpio_pin_get_dt` returns only the lowest bit is used. -/
def newSt (a b : Int) : Lines := BitVec.ofInt 1 a ++ BitVec.ofInt 1 b

def tableIdx (old new : Lines) : BitVec 4 := old ++ new

def sQuad : List Int :=
  [ 0, -1,  1,  0,
    1,  0,  0, -1,
   -1,  0,  0,  1,
    0,  1, -1,  0]

/-- The table has an entry for every index. -/
def quad (idx : BitVec 4) : Int := sQuad.get ⟨idx.toNat, idx.isLt⟩

/-- `s_count` and `s_state`. -/
structure Encoder where
  count : BitVec 32
  state : Lines
  deriving DecidableEq

def rotaryIsr (a b : Int) (s : Encoder) : Encoder :=
  let new := newSt a b
  let delta := quad (tableIdx s.state new)
  let s' := { s with state := new }
  if delta ≠ 0 then { s' with count := s'.count + BitVec.ofInt 32 delta } else s'

/-- The values read at one edge after another. -/
def isrs (s : Encoder) (edges : List (Int × Int)) : Encoder :=
  edges.foldl (fun s edge => rotaryIsr edge.1 edge.2 s) s

def samples (edges : List (Int × Int)) : List Lines := edges.map fun edge => newSt edge.1 edge.2

def rotaryEncGetCount (s : Encoder) : Int := s.count.toInt

def rotaryEncResetCount (s : Encoder) : Encoder := { s with count := 0 }

def ENODEV : Int := 19

/-- What the driver answers in `rotary_enc_init`. -/
structure Gpio where
  readyA : Bool
  readyB : Bool
  configureA : Int
  configureB : Int
  a : Int
  b : Int
  edgeA : Int
  edgeB : Int
  callbackA : Int
  callbackB : Int
  readySw : Bool
  configureSw : Int
  deriving DecidableEq

def rotaryEncInit (g : Gpio) (s : Encoder) : Int × Encoder :=
  if !g.readyA || !g.readyB then (-ENODEV, s)
  else
    let s := rotaryEncResetCount s
    if g.configureA ≠ 0 then (g.configureA, s)
    else if g.configureB ≠ 0 then (g.configureB, s)
    else
      let s := { s with state := newSt g.a g.b }
      if g.edgeA ≠ 0 then (g.edgeA, s)
      else if g.edgeB ≠ 0 then (g.edgeB, s)
      else if g.callbackA ≠ 0 then (g.callbackA, s)
      else if g.callbackB ≠ 0 then (g.callbackB, s)
      else if g.readySw && g.configureSw ≠ 0 then (g.configureSw, s)
      else (0, s)

theorem lowBit_byte (v : Int) : (BitVec.ofInt 1 v).setWidth 8 = BitVec.ofInt 8 v &&& 1#8 := by
  apply BitVec.eq_of_toNat_eq
  rw [BitVec.toNat_and, BitVec.toNat_ofNat, Nat.mod_eq_of_lt (by decide), Nat.and_one_is_mod]
  simp only [BitVec.toNat_ofInt, BitVec.toNat_setWidth]
  omega

/-- A sample as the byte of the source. -/
theorem newSt_byte (a b : Int) :
    (newSt a b).setWidth 8 = (BitVec.ofInt 8 a &&& 1#8) <<< 1 ||| (BitVec.ofInt 8 b &&& 1#8) := by
  rw [newSt, BitVec.setWidth_append_eq_shiftLeft_setWidth_or, lowBit_byte, lowBit_byte]

theorem tableIdx_byte (old new : Lines) :
    (tableIdx old new).setWidth 8 = old.setWidth 8 <<< 2 ||| new.setWidth 8 := by
  rw [tableIdx, BitVec.setWidth_append_eq_shiftLeft_setWidth_or]

/-! The cycle. -/

def clockwise : Lines → Lines
  | 0b00 => 0b10
  | 0b10 => 0b11
  | 0b11 => 0b01
  | 0b01 => 0b00

/-- A step along the cycle counts 1, a step against it -1. -/
def signedStep (x y : Lines) : Int :=
  if y = clockwise x then 1 else if x = clockwise y then -1 else 0

def displacement (x : Lines) (path : List Lines) : Int := travel signedStep x path

/-- The place of a state on the cycle. -/
def place : Lines → Int
  | 0b00 => 0
  | 0b10 => 1
  | 0b11 => 2
  | 0b01 => 3

/-- At most one of the lines has changed. -/
def OneLine (x y : Lines) : Prop := x.getLsbD 1 = y.getLsbD 1 ∨ x.getLsbD 0 = y.getLsbD 0

instance (x y : Lines) : Decidable (OneLine x y) :=
  inferInstanceAs (Decidable (_ ∨ _))

/-- The table counts the steps of the cycle. -/
theorem quad_signedStep : ∀ x y : Lines, quad (tableIdx x y) = signedStep x y := by decide

theorem signedStep_anti : ∀ x y : Lines, signedStep y x = -signedStep x y := by decide

theorem signedStep_self : ∀ x : Lines, signedStep x x = 0 := by decide

theorem signedStep_place :
    ∀ x y : Lines, OneLine x y → signedStep x y % 4 = (place y - place x) % 4 := by decide

/-- One edge. -/
theorem rotaryIsr_step (a b : Int) (s : Encoder) :
    (rotaryIsr a b s).state = newSt a b ∧
      (rotaryIsr a b s).count = s.count + BitVec.ofInt 32 (signedStep s.state (newSt a b)) := by
  rw [← quad_signedStep]
  unfold rotaryIsr
  dsimp only
  split
  · exact ⟨rfl, rfl⟩
  · rename_i hzero
    rw [not_not] at hzero
    rw [hzero]
    simp

/-- All edges: the count changes by the displacement of the path that was sampled. -/
theorem isrs_travel (s : Encoder) (edges : List (Int × Int)) :
    (isrs s edges).state = arrive s.state (samples edges) ∧
      (isrs s edges).count =
        s.count + BitVec.ofInt 32 (displacement s.state (samples edges)) := by
  induction edges generalizing s with
  | nil => simp [isrs, samples, displacement]
  | cons edge edges ih =>
      obtain ⟨hstate, hcount⟩ := rotaryIsr_step edge.1 edge.2 s
      obtain ⟨hend, htravel⟩ := ih (rotaryIsr edge.1 edge.2 s)
      rw [hstate] at hend htravel
      constructor
      · exact hend
      · calc (isrs s (edge :: edges)).count
            = (rotaryIsr edge.1 edge.2 s).count +
                BitVec.ofInt 32 (displacement (newSt edge.1 edge.2) (samples edges)) := htravel
          _ = s.count + BitVec.ofInt 32 (displacement s.state (samples (edge :: edges))) := by
              rw [hcount, BitVec.add_assoc, ← BitVec.ofInt_add]
              rfl

/-- Around the cycle and back to the same place, only whole turns are travelled. -/
theorem displacement_place {x : Lines} {path : List Lines}
    (hpath : List.IsChain OneLine (x :: path)) :
    displacement x path % 4 = (place (arrive x path) - place x) % 4 := by
  have hstep : ∀ y z, OneLine y z → (Int.castAddHom (ZMod 4)) (signedStep y z) =
      (place z : ZMod 4) - (place y : ZMod 4) := by
    intro y z hone
    rw [Int.coe_castAddHom, ← Int.cast_sub]
    exact (ZMod.intCast_eq_intCast_iff _ _ 4).mpr (signedStep_place y z hone)
  have htravel := travel_potential (Int.castAddHom (ZMod 4)) (fun y => (place y : ZMod 4)) hstep
    hpath
  rw [Int.coe_castAddHom, ← Int.cast_sub] at htravel
  exact (ZMod.intCast_eq_intCast_iff _ _ 4).mp htravel

/-- A word counts modulo 2^32, of which 4 is a divisor. -/
theorem toNat_add_ofInt_mod_four (count : BitVec 32) (d : Int) :
    ((count + BitVec.ofInt 32 d).toNat : Int) % 4 = (count.toNat + d) % 4 := by
  rw [BitVec.toNat_add, BitVec.toNat_ofInt]
  omega

theorem isrs_append (s : Encoder) (front back : List (Int × Int)) :
    isrs s (front ++ back) = isrs (isrs s front) back :=
  List.foldl_append

/-- Back and forth between two states, and in the end where it began. -/
theorem isrs_bounce {s : Encoder} {y : Lines} {bounce : List (Int × Int)}
    (hpair : ∀ z ∈ samples bounce, z = s.state ∨ z = y)
    (hend : (isrs s bounce).state = s.state) : (isrs s bounce).count = s.count := by
  obtain ⟨hstate, hcount⟩ := isrs_travel s bounce
  have hzero : displacement s.state (samples bounce) = 0 := by
    rw [displacement, travel_pair signedStep_anti signedStep_self (Or.inl rfl) hpair, ← hstate,
      hend, signedStep_self]
  rw [hcount, hzero]
  simp

/-- The same path in reverse brings the count back. -/
theorem isrs_wayBack {s : Encoder} {edges back : List (Int × Int)}
    (hback : samples back = wayBack s.state (samples edges)) : isrs s (edges ++ back) = s := by
  obtain ⟨hstate, hcount⟩ := isrs_travel s edges
  obtain ⟨hstate', hcount'⟩ := isrs_travel (isrs s edges) back
  have hhome : (isrs (isrs s edges) back).state = s.state := by
    rw [hstate', hstate, hback, arrive_wayBack]
  have hsame : (isrs (isrs s edges) back).count = s.count := by
    rw [hcount', hstate, hback, displacement, travel_wayBack signedStep_anti, hcount,
      BitVec.add_assoc, ← BitVec.ofInt_add, displacement, add_neg_cancel]
    simp
  rw [isrs_append]
  generalize isrs (isrs s edges) back = s' at hhome hsame
  cases s'
  cases s
  simp_all

/-- The count over any sequence of samples in which at most one line changes from
one to the next: it is the displacement, its residue modulo 4 is told by the first
and the last state, a bounce adds nothing and the way back takes all away. -/
theorem count_is_displacement (s : Encoder) (edges : List (Int × Int))
    (hpath : List.IsChain OneLine (s.state :: samples edges)) :
    (isrs s edges).count = s.count + BitVec.ofInt 32 (displacement s.state (samples edges)) ∧
    ((isrs s edges).count.toNat : Int) % 4 =
      (s.count.toNat + (place (isrs s edges).state - place s.state)) % 4 ∧
    (∀ bounce y, (∀ z ∈ samples bounce, z = (isrs s edges).state ∨ z = y) →
      (isrs s (edges ++ bounce)).state = (isrs s edges).state →
      (isrs s (edges ++ bounce)).count = (isrs s edges).count) ∧
    (∀ back, samples back = wayBack s.state (samples edges) → isrs s (edges ++ back) = s) := by
  obtain ⟨hstate, hcount⟩ := isrs_travel s edges
  refine ⟨hcount, ?_, ?_, ?_⟩
  · have hplace := displacement_place hpath
    rw [hcount, toNat_add_ofInt_mod_four, hstate]
    omega
  · intro bounce y hpair hend
    rw [isrs_append] at hend ⊢
    exact isrs_bounce hpair hend
  · intro back hback
    exact isrs_wayBack hback

theorem count_is_displacement_bounce :
    (isrs ⟨7, 0⟩ [(1, 0), (1, 1), (1, 0), (1, 1)]).count =
      7 + BitVec.ofInt 32 (displacement 0 [2, 3, 2, 3]) :=
  (count_is_displacement ⟨7, 0⟩ [(1, 0), (1, 1), (1, 0), (1, 1)] (by decide)).1

/-! The shaft. -/

/-- The lines at a position of the shaft, in steps from one where both are 0. -/
def linesAt (p : Int) : Lines :=
  if p % 4 = 0 then 0b00 else if p % 4 = 1 then 0b10 else if p % 4 = 2 then 0b11 else 0b01

theorem linesAt_succ (p : Int) : linesAt (p + 1) = clockwise (linesAt p) := by
  have hsucc : (p + 1) % 4 = (p % 4 + 1) % 4 := by omega
  have hp : p % 4 = 0 ∨ p % 4 = 1 ∨ p % 4 = 2 ∨ p % 4 = 3 := by omega
  unfold linesAt
  rw [hsucc]
  rcases hp with hp | hp | hp | hp
  all_goals
    rw [hp]
    rfl

theorem signedStep_clockwise : ∀ x : Lines, signedStep x (clockwise x) = 1 := by decide

theorem signedStep_linesAt {p q : Int} (hnear : q = p ∨ q = p + 1 ∨ p = q + 1) :
    signedStep (linesAt p) (linesAt q) = q - p := by
  rcases hnear with rfl | rfl | rfl
  · rw [signedStep_self, sub_self]
  · rw [linesAt_succ, signedStep_clockwise]
    omega
  · rw [signedStep_anti, linesAt_succ, signedStep_clockwise]
    omega

/-- A shaft that is sampled at least once at each step it makes is followed exactly. -/
theorem isrs_shaft {s : Encoder} {p : Int} {track : List Int} {edges : List (Int × Int)}
    (hs : s.state = linesAt p) (hsamples : samples edges = track.map linesAt)
    (hslow : List.IsChain (fun p q => q = p ∨ q = p + 1 ∨ p = q + 1) (p :: track)) :
    (isrs s edges).count = s.count + BitVec.ofInt 32 (arrive p track - p) := by
  have htravel : travel (fun q r => signedStep (linesAt q) (linesAt r)) p track =
      arrive p track - p :=
    travel_potential (AddMonoidHom.id Int) id (fun _ _ hnear => signedStep_linesAt hnear) hslow
  rw [(isrs_travel s edges).2, hs, hsamples, displacement, travel_map, htravel]

/-- From `rotary_enc_init` on, `rotary_enc_get_count` is where the shaft has gone. -/
theorem rotaryEncGetCount_shaft {g : Gpio} {s : Encoder} {p : Int} {track : List Int}
    {edges : List (Int × Int)} (hinit : (rotaryEncInit g s).1 = 0)
    (hstart : newSt g.a g.b = linesAt p) (hsamples : samples edges = track.map linesAt)
    (hslow : List.IsChain (fun p q => q = p ∨ q = p + 1 ∨ p = q + 1) (p :: track))
    (hlow : -2147483648 ≤ arrive p track - p) (hhigh : arrive p track - p < 2147483648) :
    rotaryEncGetCount (isrs (rotaryEncInit g s).2 edges) = arrive p track - p := by
  have hready : (rotaryEncInit g s).2 = ⟨0, newSt g.a g.b⟩ := by
    unfold rotaryEncInit at hinit ⊢
    simp only [rotaryEncResetCount] at hinit ⊢
    split at hinit
    · cases hinit
    · repeat' split at hinit
      all_goals simp_all
  rw [rotaryEncGetCount, isrs_shaft (by rw [hready]; exact hstart) hsamples hslow, hready]
  have hzero : (0 : BitVec 32) + BitVec.ofInt 32 (arrive p track - p) =
      BitVec.ofInt 32 (arrive p track - p) := BitVec.zero_add _
  rw [hzero, BitVec.toInt_ofInt]
  apply Int.bmod_eq_of_le
  · exact hlow
  · exact hhigh

end Rw612.Rotary
