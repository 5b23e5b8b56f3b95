import Mathlib.Data.Nat.Bitwise

/-!
Infrared symbols and the Samsung air-conditioner encoder of
`ir_codec_samsung_ac.c`: a global header, then for each section of seven bytes a
section header, 56 data bits sent least significant bit first, and a foot whose
space separates the sections or ends the frame.
-/

namespace Rw612.Ir

/-- `ir_symbol_t`: carrier on, then carrier off, in microseconds. -/
structure Symbol where
  markUs : UInt16
  spaceUs : UInt16
  deriving DecidableEq, Repr

def IR_SAC_HDR_MARK_US : UInt16 := 690
def IR_SAC_HDR_SPACE_US : UInt16 := 17844
def IR_SAC_SEC_MARK_US : UInt16 := 3086
def IR_SAC_SEC_SPACE_US : UInt16 := 8864
def IR_SAC_GAP_US : UInt16 := 2886
def IR_SAC_BIT_MARK_US : UInt16 := 586
def IR_SAC_ONE_SPACE_US : UInt16 := 1432
def IR_SAC_ZERO_SPACE_US : UInt16 := 436
def IR_SAC_FINAL_GAP_US : UInt16 := 20000

def IR_SAC_SECTION_BYTES : Nat := 7
def IR_SAC_MAX_BYTES : Nat := 21

/-- `bit_lsbf`: bit `k` of a section, counted from its first byte. -/
def bitLsbf (sec : List UInt8) (k : Nat) : UInt8 :=
  (sec.getD (k / 8) 0 >>> UInt8.ofNat (k % 8)) &&& 1

def bitSymbol (bit : UInt8) : Symbol :=
  ⟨IR_SAC_BIT_MARK_US,
    if bit ≠ 0 then IR_SAC_ONE_SPACE_US else IR_SAC_ZERO_SPACE_US⟩

/-- The body of the section loop, for section `s` of `nsec`. -/
def encodeSection (data : List UInt8) (nsec s : Nat) : List Symbol :=
  let sec := data.drop (s * IR_SAC_SECTION_BYTES)
  [⟨IR_SAC_SEC_MARK_US, IR_SAC_SEC_SPACE_US⟩] ++
    (List.range 56).map (fun k => bitSymbol (bitLsbf sec k)) ++
    [⟨IR_SAC_BIT_MARK_US,
      if s + 1 < nsec then IR_SAC_GAP_US else IR_SAC_FINAL_GAP_US⟩]

/-- `ir_codec_samsung_ac_encode`; the array it fills, or its error code. -/
def irCodecSamsungAcEncode (data : List UInt8) (outCap : Nat) :
    Except Int (List Symbol) :=
  if data.length = 0 ∨ data.length % IR_SAC_SECTION_BYTES ≠ 0 then .error (-2)
  else if IR_SAC_MAX_BYTES < data.length then .error (-3)
  else
    let nsec := data.length / IR_SAC_SECTION_BYTES
    if outCap < 1 + (1 + 56 + 1) * nsec then .error (-4)
    else .ok (⟨IR_SAC_HDR_MARK_US, IR_SAC_HDR_SPACE_US⟩ ::
      (List.range nsec).flatMap (encodeSection data nsec))

/-- Bit `k` of a byte, as a byte. -/
def bitAt (b : UInt8) (k : Nat) : UInt8 := (b >>> UInt8.ofNat k) &&& 1

/-- The bits of a byte in the order in which they are sent. -/
def byteBits (b : UInt8) : List UInt8 := (List.range 8).map (bitAt b)

/-- Seven bytes leave the encoder as the bits of one byte after the other. -/
theorem bitLsbf_section (b₀ b₁ b₂ b₃ b₄ b₅ b₆ : UInt8) (rest : List UInt8) :
    (List.range 56).map
        (bitLsbf (b₀ :: b₁ :: b₂ :: b₃ :: b₄ :: b₅ :: b₆ :: rest)) =
      [b₀, b₁, b₂, b₃, b₄, b₅, b₆].flatMap byteBits := rfl

theorem bitAt_eq (b : UInt8) (k : Nat) : bitAt b k = 0 ∨ bitAt b k = 1 := by
  have hmod : (bitAt b k).toNat = (b >>> UInt8.ofNat k).toNat % 2 := by
    simp only [bitAt, UInt8.toNat_and, UInt8.toNat_one, Nat.and_one_is_mod]
  rcases Nat.mod_two_eq_zero_or_one (b >>> UInt8.ofNat k).toNat with h | h
  · exact Or.inl (UInt8.toNat_inj.mp (by rw [hmod, h]; rfl))
  · exact Or.inr (UInt8.toNat_inj.mp (by rw [hmod, h]; rfl))

/-- Or-ing the eight bits of a byte in at their positions restores it. -/
theorem byte_of_bits (b : UInt8) :
    (List.range 8).foldl
      (fun cur k => cur ||| (bitAt b k <<< UInt8.ofNat k)) 0 = b := by
  have hall : ∀ n : Fin 256, (List.range 8).foldl (fun cur k =>
      cur ||| (bitAt (UInt8.ofNat n) k <<< UInt8.ofNat k)) 0 =
        UInt8.ofNat n := by
    decide +kernel
  simpa using hall ⟨b.toNat, b.toNat_lt⟩

end Rw612.Ir
